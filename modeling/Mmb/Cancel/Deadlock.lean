import Mmb.Cancel.Invariant

/-!
# When the calls of `wait_cancel_order` cannot move

A call cannot take a step, whatever the environment decides, exactly when it
waits for the shard lock (at `entry()` or in its guard's `remove`), or sits in
its follower `select!` with neither `rx.recv()` nor its token ready, or has
returned (`Sys.blocked`, `runCall_eq_none_iff`).

`waitCancelOrder_deadlocks` shows that a state where no call can move
although one has not returned is reachable with no token cancelled, whichever
way the leader's work ends: `Ok(())` (a follower takes the entry between the
leader's `send` and its guard), an error through the `?`, or the leader's
future dropped (the follower takes the entry before).  A follower holds the
`Occupied` entry, and with it the shard lock, while the leader's guard waits
for that lock in `remove`.

These are deadlocks of the code under every scheduler.  `deadlock_shape` is
a statement about the scheduler `step` assumes, one that polls every task
whose awaited future is ready: under it, every stuck state has that shape.
Tokio's multi-thread runtime does not give this guarantee: the follower woken
by the leader's `tx.send` can sit in the LIFO slot of the leader's worker
thread, which then blocks in the synchronous `remove`, and no other worker
may take it.  That deadlock, with a value sent after the follower subscribed,
is outside the model.

`channel_carries_one_value` says that no channel ever carries more than the
one value its leader sends: a follower's `rx.recv()` waits for that value or
for the last `Sender` to go, and never finds the capacity-1 channel lagged.
`follower_ok_after_leader_ok` says that the last `Sender` never goes while a
follower waits: a follower whose token was not cancelled returns `Ok(())` only
on the value its leader sent after its work returned `Ok(())`.
-/

namespace Mmb
namespace Cancel

/-- A choice that lets the work move on from `w`. -/
def WorkPc.anyChoice : WorkPc → Choice
  | .select => .timeout
  | .awaitOrderInfo _ => .orderInfo (.error .other) true
  | _ => .resolved true

/-- A leader's work can always move on. -/
theorem workStep_anyChoice (allowed : AllowedEventSourceType) (checkOrderFills cancelled : Bool)
    (o : Order) (w : WorkPc) :
    (workStep allowed checkOrderFills cancelled o w w.anyChoice).isSome := by
  cases w <;> dsimp only [workStep, WorkPc.anyChoice] <;> (try split) <;> rfl

/-- Call `call` waits for the shard lock, at `entry()` or in its guard, or for its
`select!`, or has returned. -/
def Sys.blocked (s : Sys) (call : Call) : Bool :=
  match call.pc with
  | .start | .guard _ _ => s.locked
  | .waiting ch pos => !((s.channels ch).ready pos || call.cancelled)
  | .done _ => true
  | _ => false

section Stuck

variable {allowed : AllowedEventSourceType} {s : Sys}

/-- A call cannot move, whatever the environment decides, exactly when it is blocked. -/
theorem runCall_eq_none_iff {i : Nat} {call : Call} :
    (∀ c, runCall allowed s i call c = none) ↔ s.blocked call = true := by
  constructor
  · intro h
    rcases hpc : call.pc with _ | _ | ⟨ch, pos⟩ | ⟨ch, w⟩ | _ | _ | _ <;>
      have h' := h (match call.pc with | .working _ w => w.anyChoice | _ => .go) <;>
      simp only [runCall, Sys.blocked, hpc] at h' ⊢
    · split at h'
      · assumption
      · split at h' <;> cases h'
    · cases h'
    · split at h' <;> simp_all
    · rw [Option.map_eq_none'] at h'
      exact absurd h' (Option.isSome_iff_ne_none.mp (workStep_anyChoice _ _ _ _ w))
    · cases h'
    · split at h' <;> simp_all
  · intro h c
    rcases hpc : call.pc with _ | _ | ⟨ch, pos⟩ | _ | _ | _ | _ <;>
      simp_all [runCall, Sys.blocked]

/-- No call can move exactly when every call is blocked. -/
theorem stuck_iff :
    (∀ i c, step allowed s (.run i c) = none) ↔ ∀ call ∈ s.calls, s.blocked call = true := by
  constructor
  · intro h call hc
    obtain ⟨i, hi⟩ := List.mem_iff_getElem?.mp hc
    exact runCall_eq_none_iff.mp fun c => by simpa [step, hi] using h i c
  · intro h i c
    cases hi : s.calls[i]? with
    | none => simp [step, hi]
    | some call => simpa [step, hi] using runCall_eq_none_iff.mpr (h call (List.getElem?_mem hi)) c

end Stuck

/-! ## Reachable deadlocks -/

def canceledOrder : Order := ⟨.canceled, none, 0, ⟨false, none, none, none, false⟩⟩

def creatingOrder : Order := ⟨.creating, none, 0, ⟨false, none, none, none, false⟩⟩

/-- On `canceledOrder`, call 0 leads, finds the order finished and sends `Ok(())`; before its
guard runs, call 1 takes the entry and subscribes. -/
def okSchedule : List Act :=
  [.call false, .run 0 .go, .run 0 .go, .run 0 .go, .run 0 .go, .call false, .run 1 .go,
    .run 1 .go]

/-- On `creatingOrder`, call 0 leads and awaits `create_order_created_task`; call 1 takes
the entry and subscribes; the task fails and call 0 returns its error through the `?`. -/
def errSchedule : List Act :=
  [.call false, .run 0 .go, .run 0 .go, .call false, .run 1 .go, .run 1 .go,
    .run 0 (.resolved false)]

/-- As `errSchedule`, but call 0's future is dropped at its await. -/
def dropSchedule : List Act :=
  [.call false, .run 0 .go, .run 0 .go, .call false, .run 1 .go, .run 1 .go, .drop 0]

/-- Whichever way the leader's work ends, with no token ever cancelled, the calls reach a
state where the leader waits in its guard and no call can take a step. -/
theorem waitCancelOrder_deadlocks :
    ∀ r ∈ [Ret.ok, .err .request, .dropped], ∃ s, Reachable .all s ∧
      (∀ call ∈ s.calls, call.cancelled = false) ∧ (∃ call ∈ s.calls, call.pc = .guard 0 r) ∧
      ∀ i c, step .all s (.run i c) = none := by
  intro r hr
  simp only [List.mem_cons, List.mem_singleton, List.not_mem_nil, or_false] at hr
  rcases hr with rfl | rfl | rfl
  · exact ⟨_, (Reachable.init canceledOrder).run (show run .all _ okSchedule = some _ from rfl),
      by decide, by decide, stuck_iff.mpr (by decide)⟩
  · exact ⟨_, (Reachable.init creatingOrder).run (show run .all _ errSchedule = some _ from rfl),
      by decide, by decide, stuck_iff.mpr (by decide)⟩
  · exact ⟨_, (Reachable.init creatingOrder).run (show run .all _ dropSchedule = some _ from rfl),
      by decide, by decide, stuck_iff.mpr (by decide)⟩

/-- The error case: the leader's `create_order_created_task` fails while a follower holds the
entry. -/
theorem waitCancelOrder_deadlocks_on_error :
    Ret.err .request ∈ [Ret.ok, .err .request, .dropped] ∧ ∃ s, Reachable .all s ∧
      (∀ call ∈ s.calls, call.cancelled = false) ∧
      (∃ call ∈ s.calls, call.pc = .guard 0 (.err .request)) ∧
      ∀ i c, step .all s (.run i c) = none :=
  ⟨by decide, waitCancelOrder_deadlocks _ (by decide)⟩

/-! ## The shape of every deadlock -/

section Shape

variable {allowed : AllowedEventSourceType} {s : Sys}

/-- Every state in which no call can move although one has not returned, under a scheduler
that polls every ready task: a follower holds the entry and waits on its channel for a value
not sent after it subscribed, its token not cancelled, while the channel's leader waits in its
guard for the lock. -/
theorem deadlock_shape (hs : Reachable allowed s)
    (hstuck : ∀ i c, step allowed s (.run i c) = none)
    (hlive : ∃ call ∈ s.calls, ∀ r, call.pc ≠ .done r) :
    s.locked = true ∧ ∃ ch pos, s.entry = some ch ∧
      (∃ follower ∈ s.calls, follower.pc = .waiting ch pos ∧ follower.cancelled = false ∧
        (s.channels ch).sent ≤ pos ∧ 0 < (s.channels ch).senders) ∧
      ∃ leader ∈ s.calls, ∃ r, leader.pc = .guard ch r := by
  have hi := hs.inv
  have hb := stuck_iff.mp hstuck
  -- some call is blocked on the lock or in its `select!`; either way the lock is held
  have hlocked : s.locked = true := by
    obtain ⟨call, hc, hnd⟩ := hlive
    have hcb := hb call hc
    rcases hpc : call.pc with _ | _ | ⟨ch, pos⟩ | _ | _ | _ | r
    · simpa [Sys.blocked, hpc] using hcb
    · have := hi.lock
      have := @countPc_pos Pc.holdsEntry _ _ hc (by rw [hpc]; rfl)
      cases h : s.locked <;> simp_all
    · have := hi.lock
      have := @countPc_pos Pc.holdsEntry _ _ hc (by rw [hpc]; rfl)
      cases h : s.locked <;> simp_all
    all_goals simp [Sys.blocked, hpc] at hcb
    · exact hcb
    · exact absurd hpc (hnd r)
  -- the lock is held by a follower, which must be blocked in its `select!`
  have hlock := hi.lock
  rw [hlocked] at hlock
  obtain ⟨follower, hf, hfE⟩ :=
    List.countP_pos_iff.mp (show 0 < countPc s.calls Pc.holdsEntry by simp [hlock])
  have hfb := hb follower hf
  rcases hfpc : follower.pc with _ | _ | ⟨ch, pos⟩ | _ | _ | _ | _ <;>
    simp only [hfpc, Pc.holdsEntry, Sys.blocked, Bool.false_eq_true] at hfE hfb
  have he := hi.channel follower hf ch (by rw [hfpc]; rfl)
  have hsend := hi.senders ch he
  simp only [Channel.ready, Bool.not_or, Bool.and_eq_true, Bool.not_eq_true', Bool.or_eq_false_iff,
    decide_eq_false_iff_not, not_lt, beq_eq_false_iff_ne, ne_eq] at hfb
  refine ⟨hlocked, ch, pos, he, ⟨follower, hf, hfpc, hfb.2, hfb.1.1, by omega⟩, ?_⟩
  -- the entry has its leader, which must be blocked in its guard
  have howner := hi.owner
  rw [he] at howner
  obtain ⟨leader, hl, hlO⟩ :=
    List.countP_pos_iff.mp (show 0 < countPc s.calls Pc.isOwner by simp [howner])
  have hlb := hb leader hl
  rcases hlpc : leader.pc with _ | _ | _ | _ | _ | ⟨ch', r⟩ | _ <;>
    simp only [hlpc, Pc.isOwner, Sys.blocked, Bool.false_eq_true] at hlO hlb
  obtain rfl : ch' = ch := Option.some.inj
    ((hi.channel leader hl ch' (by rw [hlpc]; rfl)).symm.trans he)
  exact ⟨leader, hl, r, hlpc⟩

end Shape

/-- On the state `okSchedule` reaches, the hypotheses of `deadlock_shape` hold, and with
them its description. -/
theorem okSchedule_deadlock_shape :
    ∃ s, Reachable .all s ∧ (∀ i c, step .all s (.run i c) = none) ∧
      (∃ call ∈ s.calls, ∀ r, call.pc ≠ .done r) ∧
      (s.locked = true ∧ ∃ ch pos, s.entry = some ch ∧
        (∃ follower ∈ s.calls, follower.pc = .waiting ch pos ∧ follower.cancelled = false ∧
          (s.channels ch).sent ≤ pos ∧ 0 < (s.channels ch).senders) ∧
        ∃ leader ∈ s.calls, ∃ r, leader.pc = .guard ch r) := by
  let s := (run .all (Sys.init canceledOrder) okSchedule).getD (Sys.init canceledOrder)
  have hs : Reachable .all s :=
    (Reachable.init canceledOrder).run (show run .all _ okSchedule = some s from rfl)
  have hstuck : ∀ i c, step .all s (.run i c) = none := stuck_iff.mpr (by decide)
  have hlive : ∃ call ∈ s.calls, ∀ r, call.pc ≠ .done r :=
    ⟨⟨.guard 0 .ok, false, false⟩, by decide, fun _ h => by cases h⟩
  exact ⟨s, hs, hstuck, hlive, deadlock_shape hs hstuck hlive⟩

/-! ## The values on a channel -/

section Values

variable {allowed : AllowedEventSourceType} {s s' : Sys} {a : Act}

@[simp] theorem Sys.dropSender_sent (s : Sys) (ch ch' : Nat) :
    ((s.dropSender ch).channels ch').sent = (s.channels ch').sent := by
  by_cases h : ch' = ch
  · subst h
    simp
  · simp [Sys.dropSender, Function.update_noteq h]

@[simp] theorem Sys.remove_sent (s : Sys) (ch : Nat) :
    (s.remove.channels ch).sent = (s.channels ch).sent := by
  unfold Sys.remove
  split
  · exact Sys.dropSender_sent s _ ch
  · rfl

/-- A step adds a value to no channel but the entry's. -/
theorem step_sent (hi : Inv s) (hs : step allowed s a = some s') (ch : Nat) :
    (s'.channels ch).sent ≤ (s.channels ch).sent ∨ s'.entry = some ch := by
  cases a with
  | call _ => cases hs; exact .inl le_rfl
  | cancel i => obtain ⟨call, -, rfl⟩ := Option.map_eq_some'.mp hs; exact .inl le_rfl
  | updateOrder o =>
      simp only [step] at hs
      split at hs <;> cases hs
      exact .inl le_rfl
  | drop i =>
      obtain ⟨call, -, hs⟩ := Option.bind_eq_some.mp hs
      rcases dropCall_cases hs with ⟨_, _, -, rfl⟩ | ⟨_, _, -, -, rfl⟩
      · exact .inl le_rfl
      · exact .inl (Sys.dropSender_sent _ _ ch).le
  | run i c =>
      obtain ⟨call, h, hs⟩ := Option.bind_eq_some.mp hs
      rcases runCall_cases hs with ⟨-, -, _, -, rfl⟩ | ⟨-, -, -, rfl⟩ | ⟨_, -, rfl⟩ |
          ⟨_, _, -, -, rfl⟩ | ⟨ch', w, f, reqs, -, -, rfl⟩ | ⟨ch', hpc, rfl⟩ | ⟨_, _, -, -, rfl⟩
      · exact .inl le_rfl
      · -- a new channel starts empty
        left
        by_cases hch : ch = s.nextChannel
        · subst hch
          simp
        · simp [Function.update_noteq hch]
      · exact .inl le_rfl
      · exact .inl le_rfl
      · left
        rw [Sys.afterWork_channels]
        split
        · exact le_rfl
        · exact (Sys.dropSender_sent _ _ ch).le
      · -- the leader sends on its own channel, the entry's
        by_cases hch : ch = ch'
        · subst hch
          exact .inr (hi.channel call (List.getElem?_mem h) ch (by rw [hpc]; rfl))
        · left
          simp [Function.update_noteq hch]
      · left
        rw [Sys.setPc_channels, Sys.remove_sent]

/-- No broadcast channel of the coordinator ever carries more than one value: only the
entry's channel gets one, from its leader's `tx.send`, once.  A follower subscribed to a
channel has therefore at most one value to read, which a channel of capacity 1 keeps, so its
`rx.recv()` never returns `Lagged`. -/
theorem channel_carries_one_value (allowed : AllowedEventSourceType) :
    ∀ s, Reachable allowed s → ∀ ch, (s.channels ch).sent ≤ 1 := by
  intro s hs
  induction hs with
  | init o => exact fun _ => Nat.zero_le _
  | step a hs hstep ih =>
      intro ch
      rcases step_sent hs.inv hstep ch with hle | he
      · exact hle.trans (ih ch)
      · -- the entry's values are its leader's `Ok(())`, and there is one leader
        have hi := (hs.step a hstep).inv
        rw [hi.sent ch he]
        have hO := hi.owner
        rw [he, Option.isSome_some, Bool.toNat_true] at hO
        exact hO ▸ countPc_le (fun _ => Pc.isOwner_of_sentOk) _

end Values

/-- In the deadlock `okSchedule` reaches, the entry's channel carries the leader's one value,
which the follower subscribed too late to see. -/
theorem okSchedule_channel_value :
    ∃ s, Reachable .all s ∧ (s.channels 0).sent = 1 ∧ ∀ ch, (s.channels ch).sent ≤ 1 := by
  let s := (run .all (Sys.init canceledOrder) okSchedule).getD (Sys.init canceledOrder)
  have hs : Reachable .all s :=
    (Reachable.init canceledOrder).run (show run .all _ okSchedule = some s from rfl)
  exact ⟨s, hs, rfl, channel_carries_one_value .all s hs⟩

/-- A follower whose token was not cancelled leaves its `select!` only on the value its
leader sends once its work returned `Ok(())`: while the follower holds the entry, the map's
`Sender` keeps the channel open, so its `rx.recv()` cannot end on `Closed`. -/
theorem follower_ok_after_leader_ok (allowed : AllowedEventSourceType) :
    ∀ s, Reachable allowed s → ∀ (i : Nat) (call : Call) (ch pos : Nat) (c : Choice) (s' : Sys),
      s.calls[i]? = some call → call.pc = .waiting ch pos → call.cancelled = false →
      runCall allowed s i call c = some s' → ∃ leader ∈ s.calls, leader.pc = .guard ch .ok := by
  intro s hs i call ch pos c s' hcall hpc hcan hrun
  have hi := hs.inv
  have hentry : s.entry = some ch :=
    hi.channel call (List.getElem?_mem hcall) ch (by rw [hpc]; rfl)
  have hready : (s.channels ch).ready pos = true := by
    simp only [runCall, hpc, hcan, Bool.or_false] at hrun
    split at hrun
    · assumption
    · cases hrun
  -- the map's `Sender` is live, so the value was sent: some leader is past its send
  have hsent : 0 < countPc s.calls Pc.sentOk := by
    rw [← hi.sent ch hentry]
    simp only [Channel.ready, hi.senders ch hentry, Bool.or_eq_true, decide_eq_true_eq,
      beq_iff_eq] at hready
    omega
  obtain ⟨leader, hmem, hok⟩ := List.countP_pos_iff.mp hsent
  refine ⟨leader, hmem, ?_⟩
  rcases hpc' : leader.pc with _ | _ | _ | _ | _ | ⟨ch', _ | _ | _⟩ | _ <;>
    simp only [hpc', Pc.sentOk, Bool.false_eq_true] at hok
  · cases hentry.symm.trans (hi.channel leader hmem ch' (by rw [hpc']; rfl))
    rfl

/-- On `canceledOrder`, call 0 leads and call 1 subscribes before call 0 finds the order
finished and sends `Ok(())`. -/
def followerSchedule : List Act :=
  [.call false, .run 0 .go, .call false, .run 1 .go, .run 1 .go, .run 0 .go, .run 0 .go,
    .run 0 .go]

def followerState : Sys :=
  (run .all (Sys.init canceledOrder) followerSchedule).getD (Sys.init canceledOrder)

theorem followerState_ok_after_leader_ok :
    followerState.calls[1]? = some ⟨.waiting 0 0, false, false⟩ ∧
      (∃ s', runCall .all followerState 1 ⟨.waiting 0 0, false, false⟩ .go = some s') ∧
      ∃ leader ∈ followerState.calls, leader.pc = .guard 0 .ok :=
  have hs : Reachable .all followerState := (Reachable.init canceledOrder).run
    (show run .all _ followerSchedule = some followerState from rfl)
  ⟨rfl, ⟨_, rfl⟩, follower_ok_after_leader_ok .all followerState hs 1 _ 0 0 .go _ rfl rfl rfl rfl⟩

end Cancel
end Mmb
