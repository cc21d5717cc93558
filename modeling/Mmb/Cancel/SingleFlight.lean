import Mmb.Cancel.Invariant

/-!
# Single flight

The `wait_cancel_order` map and the `is_canceling_from_wait_cancel_order`
latch make the coordinator single-flight.  `singleFlight` states it over
every reachable state of any number of calls, in any interleaving and
whatever the environment does:

* the entry is in the map exactly while one call is between its `Vacant`
  insert and its scope guard's `remove`, and every such call holds the
  entry's channel;
* the entry goes only by the guard of the call holding its channel, which
  then returns, so it goes once per insert (`step_entry` says what changes
  the entry at all);
* at most one call is in the retry loop or after it, and the coordinator
  calls `add_event_on_order_change(order, CancelOrderSucceeded)` at most
  once; over a whole schedule at most one step passes the latch
  (`latchPasses_add_latch_le`), and every entry into the retry loop is such a
  step (`step_enters_loop`).
-/

namespace Mmb
namespace Cancel

section Frame

variable {allowed : AllowedEventSourceType} {s s' : Sys} {a : Act}

/-- The entry changes only by a `Vacant` insert into an empty map, or by a guard's
`remove`. -/
theorem step_entry (hs : step allowed s a = some s') (hne : s'.entry ≠ s.entry) :
    (∃ i c call, a = .run i c ∧ s.calls[i]? = some call ∧ call.pc = .start ∧ s.entry = none ∧
      s' = (s.setPc i call (.working s.nextChannel .begin)).insert) ∨
    (∃ i c call ch r, a = .run i c ∧ s.calls[i]? = some call ∧ call.pc = .guard ch r ∧
      s' = s.remove.setPc i call (.done r)) := by
  cases a with
  | call _ => cases hs; exact absurd rfl hne
  | cancel i => obtain ⟨call, -, rfl⟩ := Option.map_eq_some'.mp hs; exact absurd rfl hne
  | updateOrder o =>
      simp only [step] at hs
      split at hs <;> cases hs
      exact absurd rfl hne
  | drop i =>
      obtain ⟨call, -, hs⟩ := Option.bind_eq_some.mp hs
      rcases dropCall_cases hs with ⟨_, _, _, rfl⟩ | ⟨_, _, _, _, rfl⟩ <;> exact absurd rfl hne
  | run i c =>
      obtain ⟨call, h, hs⟩ := Option.bind_eq_some.mp hs
      rcases runCall_cases hs with ⟨-, -, _, -, rfl⟩ | ⟨hpc, -, he, rfl⟩ | ⟨_, -, rfl⟩ |
          ⟨_, _, -, -, rfl⟩ | ⟨_, _, _, _, -, -, rfl⟩ | ⟨_, -, rfl⟩ | ⟨ch, r, hpc, -, rfl⟩
      · exact absurd rfl hne
      · exact .inl ⟨i, c, call, rfl, h, hpc, he, rfl⟩
      · exact absurd rfl hne
      · exact absurd rfl hne
      · simp at hne
      · exact absurd rfl hne
      · exact .inr ⟨i, c, call, ch, r, rfl, h, hpc, rfl⟩

/-- The latch of a leader's work. -/
def Pc.atLatch : Pc → Bool
  | .working _ w => decide (w = .latch)
  | _ => false

/-- Whether `a` is a call passing the latch found clear, into the retry loop. -/
def passesLatch (s : Sys) : Act → Bool
  | .run i _ =>
      (s.calls[i]?.any (·.pc.atLatch)) && !s.order.internalProps.isCancelingFromWaitCancelOrder
  | _ => false

theorem passesLatch_latch (h : passesLatch s a = true) :
    s.order.internalProps.isCancelingFromWaitCancelOrder = false := by
  cases a <;> simp_all [passesLatch]

/-- The only write to the latch is a call passing it. -/
theorem step_latch (hs : step allowed s a = some s') :
    s'.order.internalProps.isCancelingFromWaitCancelOrder =
      (s.order.internalProps.isCancelingFromWaitCancelOrder || passesLatch s a) := by
  cases a with
  | call _ => cases hs; simp [passesLatch]
  | cancel i => obtain ⟨call, -, rfl⟩ := Option.map_eq_some'.mp hs; simp [passesLatch]
  | updateOrder o =>
      simp only [step] at hs
      split at hs
      · rename_i hc; cases hs; simp [passesLatch, hc.1]
      · cases hs
  | drop i =>
      obtain ⟨call, -, hs⟩ := Option.bind_eq_some.mp hs
      rcases dropCall_cases hs with ⟨_, _, _, rfl⟩ | ⟨_, _, _, _, rfl⟩ <;> simp [passesLatch]
  | run i c =>
      obtain ⟨call, h, hs⟩ := Option.bind_eq_some.mp hs
      rcases runCall_cases hs with ⟨hpc, -, _, -, rfl⟩ | ⟨hpc, -, -, rfl⟩ | ⟨_, hpc, rfl⟩ |
          ⟨_, _, hpc, -, rfl⟩ | ⟨_, w, _, _, hpc, -, rfl⟩ | ⟨_, hpc, rfl⟩ | ⟨_, _, hpc, -, rfl⟩ <;>
        simp [passesLatch, h, hpc, Pc.atLatch, WorkPc.orderAfter_latch]
      cases s.order.internalProps.isCancelingFromWaitCancelOrder <;> simp

/-- A step moves only the call that acts, and a new call goes at the end. -/
theorem step_calls_frame (hs : step allowed s a = some s') {i : Nat} {c : Call}
    (h : s.calls[i]? = some c) :
    (∃ c', s'.calls[i]? = some c' ∧ c'.pc = c.pc) ∨ (∃ ch, a = .run i ch) ∨ a = .drop i := by
  have hset : ∀ j x, j ≠ i ∨ x.pc = c.pc →
      ∃ c', (s.calls.set j x)[i]? = some c' ∧ c'.pc = c.pc := by
    rintro j x (hj | hx)
    · exact ⟨c, by rw [List.getElem?_set_ne hj, h], rfl⟩
    · by_cases hj : j = i
      · subst hj
        exact ⟨x, List.getElem?_set_self (List.getElem?_eq_some_iff.mp h).1, hx⟩
      · exact ⟨c, by rw [List.getElem?_set_ne hj, h], rfl⟩
  cases a with
  | call _ =>
      cases hs
      exact .inl ⟨c, by rw [List.getElem?_append_left (List.getElem?_eq_some_iff.mp h).1, h], rfl⟩
  | cancel j =>
      obtain ⟨call, hj, rfl⟩ := Option.map_eq_some'.mp hs
      refine .inl (hset j _ ?_)
      by_cases hji : j = i
      · subst hji; rw [h] at hj; cases hj; exact .inr rfl
      · exact .inl hji
  | updateOrder o =>
      simp only [step] at hs
      split at hs <;> cases hs
      exact .inl ⟨c, h, rfl⟩
  | run j ch =>
      obtain ⟨call, -, hs⟩ := Option.bind_eq_some.mp hs
      by_cases hji : j = i
      · exact .inr (.inl ⟨ch, hji ▸ rfl⟩)
      · obtain ⟨pc, hc⟩ := runCall_calls hs
        exact .inl (hc ▸ hset j _ (.inl hji))
  | drop j =>
      obtain ⟨call, -, hs⟩ := Option.bind_eq_some.mp hs
      by_cases hji : j = i
      · exact .inr (.inr (hji ▸ rfl))
      · obtain ⟨pc, hc⟩ := dropCall_calls hs
        exact .inl (hc ▸ hset j _ (.inl hji))

/-- Call `i` enters the retry loop only by passing the latch. -/
theorem step_enters_loop (hs : step allowed s a = some s') {i : Nat} {c c' : Call}
    (h : s.calls[i]? = some c) (h' : s'.calls[i]? = some c') (hc : c.pc.pastLatch = false)
    (hc' : c'.pc.pastLatch = true) : passesLatch s a = true := by
  have hi := (List.getElem?_eq_some_iff.mp h).1
  have moved : ∀ pc, s'.calls = s.calls.set i { c with pc := pc } → c'.pc = pc := fun pc hc => by
    rw [hc, List.getElem?_set_self hi, Option.some.injEq] at h'; rw [← h']
  rcases step_calls_frame hs h with ⟨c'', h'', hpc⟩ | ⟨ch, rfl⟩ | rfl
  · rw [h', Option.some.injEq] at h''; subst h''; rw [hpc, hc] at hc'; cases hc'
  · obtain ⟨call, hcall, hs⟩ := Option.bind_eq_some.mp hs
    rw [h, Option.some.injEq] at hcall; subst hcall
    rcases runCall_cases hs with ⟨-, -, _, -, rfl⟩ | ⟨-, -, -, rfl⟩ | ⟨_, -, rfl⟩ |
        ⟨_, _, -, -, rfl⟩ | ⟨ch, w, f, reqs, hpc, hw, rfl⟩ | ⟨_, -, rfl⟩ | ⟨_, _, -, -, rfl⟩
    pick_goal 5
    · have hL := workStep_pastLatch hw ch
      rw [moved _ (Sys.afterWork_calls ..)] at hc'
      rw [hpc] at hc
      simp only [hc, hc', Bool.toNat_true, Bool.toNat_false] at hL
      simp only [passesLatch, h, Option.any_some, hpc, Pc.atLatch]
      cases hb : (decide (w = .latch) && !s.order.internalProps.isCancelingFromWaitCancelOrder)
      · simp only [hb, Bool.toNat_false] at hL; omega
      · rfl
    pick_goal 6
    · rw [moved _ (by rw [Sys.setPc_calls, Sys.remove_calls])] at hc'
      simp [Pc.pastLatch] at hc'
    all_goals
      rw [moved _ rfl] at hc'
      simp [Pc.pastLatch] at hc'
  · obtain ⟨call, hcall, hs⟩ := Option.bind_eq_some.mp hs
    rw [h, Option.some.injEq] at hcall; subst hcall
    rcases dropCall_cases hs with ⟨_, _, -, rfl⟩ | ⟨_, _, -, -, rfl⟩ <;>
      rw [moved _ rfl] at hc' <;> simp [Pc.pastLatch] at hc'

/-- How many steps of a schedule pass the latch. -/
def latchPasses (allowed : AllowedEventSourceType) : Sys → List Act → Nat
  | _, [] => 0
  | s, a :: as =>
      match step allowed s a with
      | some s' => (passesLatch s a).toNat + latchPasses allowed s' as
      | none => 0

/-- In any schedule at most one step passes the latch, and none once it is set. -/
theorem latchPasses_add_latch_le (s : Sys) (acts : List Act) :
    latchPasses allowed s acts + s.order.internalProps.isCancelingFromWaitCancelOrder.toNat ≤
      1 := by
  induction acts generalizing s with
  | nil => exact Nat.zero_add _ ▸ Bool.toNat_le _
  | cons a as ih =>
      simp only [latchPasses]
      split
      · rename_i s' hs
        have h := ih s'
        have hp := @passesLatch_latch s a
        rw [step_latch hs] at h
        cases hp' : passesLatch s a <;>
          cases hX : s.order.internalProps.isCancelingFromWaitCancelOrder <;>
          simp only [hp', hX, Bool.or_true, Bool.or_false, Bool.toNat_true, Bool.toNat_false,
            true_implies, Bool.true_eq_false] at h hp ⊢ <;> omega
      · exact Nat.zero_add _ ▸ Bool.toNat_le _

end Frame

/-- Single-flight exclusion, for any number of calls in any interleaving and whatever the
environment does.  In every reachable state: the entry is in the map exactly while one call
is between its insert and its guard's removal, and that call holds the entry's channel; a
step that takes the entry away is the guard of the call holding its channel, which then
returns; at most one call is in the retry loop or after it, so at most one
`start_cancel_order` future is alive, and `add_event_on_order_change(order,
CancelOrderSucceeded)` was called at most once.  Over a whole schedule, every entry into the
retry loop passes the latch, and at most one step does. -/
theorem singleFlight (allowed : AllowedEventSourceType) :
    (∀ s, Reachable allowed s →
      countPc s.calls Pc.isOwner = s.entry.isSome.toNat ∧
      (∀ call ∈ s.calls, call.pc.isOwner = true → call.pc.channel = s.entry) ∧
      (∀ a s' ch, step allowed s a = some s' → s.entry = some ch → s'.entry ≠ some ch →
        ∃ i c call r, a = .run i c ∧ s.calls[i]? = some call ∧ call.pc = .guard ch r ∧
          s'.entry = none ∧ s'.calls[i]? = some { call with pc := .done r }) ∧
      countPc s.calls Pc.pastLatch ≤ 1 ∧
      s.requests.countP (·.2 = .addEventOnOrderChange .cancelOrderSucceeded) ≤ 1) ∧
    (∀ s a s' (i : Nat) (c c' : Call), step allowed s a = some s' → s.calls[i]? = some c →
      s'.calls[i]? = some c' → c.pc.pastLatch = false → c'.pc.pastLatch = true →
      passesLatch s a = true) ∧
    ∀ o acts, latchPasses allowed (Sys.init o) acts ≤ 1 := by
  refine ⟨fun s hs => ?_, fun s a s' i c c' hs => step_enters_loop hs, fun o acts =>
    (Nat.le_add_right _ _).trans (latchPasses_add_latch_le _ acts)⟩
  have hi := hs.inv
  have hlatch := hi.latch
  have hX := Bool.toNat_le s.order.internalProps.isCancelingFromWaitCancelOrder
  have hA : s.requests.countP (·.2 = .addEventOnOrderChange .cancelOrderSucceeded) ≤
      s.requests.countP (·.2.isAddEvent) :=
    List.countP_mono_left fun r _ h => by simp_all [Request.isAddEvent]
  refine ⟨hi.owner, fun call hc hown => ?_, fun a s' ch hstep he hne => ?_, by omega, by omega⟩
  · obtain ⟨ch, hch⟩ := Option.isSome_iff_exists.mp
      ((Pc.channel_isSome call.pc).trans (by simp [hown]))
    rw [hch, hi.channel call hc ch hch]
  · rcases step_entry hstep (he ▸ hne) with ⟨-, -, -, -, -, -, he', -⟩ |
        ⟨i, c, call, ch', r, rfl, h, hpc, rfl⟩
    · rw [he] at he'; cases he'
    · obtain rfl : ch' = ch := Option.some.inj
        ((hi.channel call (List.getElem?_mem h) ch' (by rw [hpc]; rfl)).symm.trans he)
      refine ⟨i, c, call, r, rfl, h, hpc, by simp, ?_⟩
      simp [List.getElem?_set_self (List.getElem?_eq_some_iff.mp h).1]

end Cancel
end Mmb
