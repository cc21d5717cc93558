import Mmb.Cancel.Invariant

/-!
# The conversation with the exchange adapter

Past its latch, a leader of `wait_cancel_order` talks to the exchange adapter
about the order: it starts cancel requests, waits for the order to finish,
polls `get_order_info`, reports what it learnt through the
`handle_cancel_order_*` hooks, checks fills and finally raises the
`CancelOrderSucceeded` event.  `Conv` is that conversation as the adapter
sees it, an automaton over the requests: what may follow what.  It allows
more than the code does (one state stands for several points of the work),
and rules out what the adapter must never see: a hook without an order-info
request just before it, an order-info request or a finish future that no
cancel request opened, a second success event, or anything but the event
after the fill check that ends the work.

`conversation_follows_protocol` says that over every run, of any number of
calls in any interleaving, the requests the coordinator has made are a path
of the automaton, and that every request of the conversation was made by one
and the same call.  `workStep_conv` says it once for one step of the work:
from each point, the requests of the step lead from a state the leader can be
in there to one it can be in at the next point (`WorkPc.convStates`).
-/

namespace Mmb
namespace Cancel

open Statistic (OrderEventType)

/-- How far the conversation about the order's cancellation has got: nothing asked yet, a
cancel request or an order-info request was the last, between two rounds of the retry loop,
after the fill check that follows the loop, or closed by the `CancelOrderSucceeded` event,
after which nothing may follow. -/
inductive Conv
  | idle
  | canceling
  | querying
  | looping
  | checked
  | closed
  deriving DecidableEq, Repr

/-- What the adapter may be asked next.  The wait for the order's creation belongs to the
entry of a call, not to the conversation, and may come at any time. -/
def Conv.next : Conv → Request → Option Conv
  | q, .createOrderCreatedTask => some q
  | .idle, .startCancelOrder => some .canceling
  | .canceling, .startCancelOrder => some .canceling
  | .querying, .startCancelOrder => some .canceling
  | .looping, .startCancelOrder => some .canceling
  | .canceling, .createOrderFinishFuture => some .looping
  | .canceling, .getOrderInfo => some .querying
  | .querying, .getOrderInfo => some .querying
  | .querying, .handleCancelOrderFailed .. => some .looping
  | .querying, .handleCancelOrderSucceeded .. => some .looping
  | .querying, .checkOrderFills => some .looping
  | .idle, .checkOrderFills => some .checked
  | .canceling, .checkOrderFills => some .checked
  | .looping, .checkOrderFills => some .checked
  | .closed, _ => none
  | _, .addEventOnOrderChange .cancelOrderSucceeded => some .closed
  | _, _ => none

/-- The automaton run over a list of requests; `none` once a request is not allowed. -/
def Conv.run : Conv → List Request → Option Conv
  | q, [] => some q
  | q, r :: rs => (q.next r).bind (Conv.run · rs)

/-- Whether a request belongs to the conversation: all but the creation wait. -/
def Request.isConversation : Request → Bool
  | .createOrderCreatedTask => false
  | _ => true

theorem Conv.run_append (q : Conv) (rs rs' : List Request) :
    q.run (rs ++ rs') = (q.run rs).bind (Conv.run · rs') := by
  induction rs generalizing q with
  | nil => rfl
  | cons r rs ih =>
      show (q.next r).bind (Conv.run · (rs ++ rs')) = _
      simp only [ih, Conv.run, Option.bind_assoc]

/-- Requests outside the conversation leave its state alone. -/
theorem Conv.run_of_not_isConversation (q : Conv) {rs : List Request}
    (h : ∀ r ∈ rs, r.isConversation = false) : q.run rs = some q := by
  induction rs with
  | nil => rfl
  | cons r rs ih =>
      obtain ⟨hr, hrs⟩ := List.forall_mem_cons.mp h
      cases r with
      | createOrderCreatedTask => cases q <;> exact ih hrs
      | _ => cases hr

theorem Conv.next_eq_idle {q : Conv} {r : Request} (h : q.next r = some .idle) :
    r.isConversation = false := by
  cases r with
  | createOrderCreatedTask => rfl
  | addEventOnOrderChange e => cases q <;> cases e <;> cases h
  | _ => cases q <;> cases h

/-- A run still at `idle` made no request of the conversation. -/
theorem Conv.run_eq_idle {q : Conv} {rs : List Request} (h : q.run rs = some .idle) :
    ∀ r ∈ rs, r.isConversation = false := by
  induction rs generalizing q with
  | nil => exact fun _ h => absurd h (List.not_mem_nil _)
  | cons r rs ih =>
      obtain ⟨q', hq', hrun⟩ := Option.bind_eq_some.mp h
      have hrs := ih hrun
      obtain rfl : q' = .idle :=
        Option.some.inj ((Conv.run_of_not_isConversation q' hrs).symm.trans hrun)
      exact List.forall_mem_cons.mpr ⟨Conv.next_eq_idle hq', hrs⟩

/-- The states of the conversation a leader can be in at a point of its retry loop or after
it; none before the latch. -/
def WorkPc.convStates : WorkPc → List Conv
  | .begin | .awaitCreated | .checkFinished | .latch => []
  | .loopHead | .afterLoop => [.idle, .canceling, .querying, .looping]
  | .select | .pendingSleep => [.canceling]
  | .statusLoop _ => [.canceling, .querying]
  | .awaitOrderInfo _ => [.querying]
  | .awaitStatusFills | .awaitFinish => [.looping]
  | .checkFinishedInLoop => [.canceling, .querying, .looping]
  | .awaitFills => [.looping, .checked]
  | .emit => [.idle, .canceling, .querying, .looping, .checked]

/-- Whether a step that makes `reqs` and leads to `f` keeps the conversation in step with the
leader from the state `q`: every request is allowed, and the state they reach is one the
leader can be in at its next point. -/
def Flow.convOk (f : Flow) (reqs : List Request) (q : Conv) : Bool :=
  (q.run reqs).any fun q' =>
    match f with
    | .next w => q' ∈ w.convStates
    | _ => true

theorem Flow.conv_of_convOk {f : Flow} {reqs : List Request} {q : Conv}
    (h : f.convOk reqs q = true) :
    ∃ q', q.run reqs = some q' ∧ ∀ w, f = .next w → q' ∈ w.convStates := by
  unfold Flow.convOk at h
  cases hr : q.run reqs with
  | none => rw [hr] at h; cases h
  | some q' =>
      rw [hr, Option.any_some] at h
      exact ⟨q', rfl, by rintro w rfl; simpa using h⟩

section Steps

variable {allowed : AllowedEventSourceType} {checkOrderFills cancelled : Bool} {o : Order}
  {w : WorkPc} {c : Choice} {f : Flow} {reqs : List Request} {q : Conv}

/-- Before the latch the work asks only for the creation wait. -/
theorem workStep_entry (hr : w.region = .entry)
    (h : workStep allowed checkOrderFills cancelled o w c = some (f, reqs)) :
    ∀ r ∈ reqs, r.isConversation = false := by
  cases w <;> simp only [WorkPc.region, reduceCtorEq] at hr <;> dsimp only [workStep] at h
  · split at h <;> obtain ⟨-, rfl⟩ := Prod.mk.inj (Option.some.inj h) <;> decide
  all_goals
    cases c <;> simp only [Option.some.injEq, Prod.mk.injEq, reduceCtorEq] at h <;>
      (obtain ⟨-, rfl⟩ := h; decide)

theorem orderCancelled_convOk (outcome : Option CancelOrderResult) :
    (WorkPc.select.convStates.all
      ((Flow.next (orderCancelled outcome).1).convOk (orderCancelled outcome).2)) = true := by
  rcases outcome with _ | ⟨_ | ⟨⟨_ | _ | _ | _ | _ | _, _, _⟩⟩⟩ <;> rfl

theorem orderInfoOutcome_convOk (exchangeError : Option ExchangeError) (o : Order)
    (result : Except ExchangeErrorType OrderInfo) (hookOk : Bool) :
    ((WorkPc.awaitOrderInfo exchangeError).convStates.all
      ((orderInfoOutcome exchangeError o result hookOk).1.convOk
        (orderInfoOutcome exchangeError o result hookOk).2)) = true := by
  rcases o with ⟨_, _ | _, _, _⟩ <;>
    rcases result with (_ | _ | _ | _ | _ | _) | ⟨_ | _ | _ | _ | _ | _, _⟩ <;> cases hookOk <;> rfl

/-- Every step of the work, checked from every state of the conversation the leader can be in
at its point. -/
theorem workStep_convOk (allowed : AllowedEventSourceType) (checkOrderFills cancelled : Bool)
    (o : Order) (w : WorkPc) (c : Choice) :
    (workStep allowed checkOrderFills cancelled o w c).all
      (fun r => w.convStates.all (r.1.convOk r.2)) = true := by
  cases w
  case begin | checkFinished | latch | loopHead | statusLoop | checkFinishedInLoop | afterLoop =>
    dsimp only [workStep]
    split <;> rfl
  case select =>
    rcases c with _ | _ | _ | outcome | _ <;> dsimp only [workStep] <;> (repeat' split) <;>
      first | rfl | exact orderCancelled_convOk _
  case awaitOrderInfo =>
    cases c <;> dsimp only [workStep] <;> try rfl
    split
    · rfl
    · exact orderInfoOutcome_convOk _ _ _ _
  all_goals cases c <;> dsimp only [workStep] <;> (repeat' split) <;> rfl

/-- One step of the work past the latch: its requests lead from a state of the conversation
the leader can be in at `w` to one it can be in at the next point. -/
theorem workStep_conv (hq : q ∈ w.convStates)
    (h : workStep allowed checkOrderFills cancelled o w c = some (f, reqs)) :
    ∃ q', q.run reqs = some q' ∧ ∀ w', f = .next w' → q' ∈ w'.convStates := by
  have hall := workStep_convOk allowed checkOrderFills cancelled o w c
  rw [h, Option.all_some] at hall
  exact Flow.conv_of_convOk (List.all_eq_true.mp hall q hq)

end Steps


/-! ## Every run -/

/-- The state of the conversation the requests made so far have reached; `none` once one of
them was not allowed. -/
def Sys.conv (s : Sys) : Option Conv :=
  Conv.idle.run (s.requests.map Prod.snd)

theorem Sys.conv_afterWork (s : Sys) (i : Nat) (call : Call) (ch : Nat) (w : WorkPc)
    (f : Flow) (reqs : List Request) :
    (s.afterWork i call ch w f reqs).conv = s.conv.bind (Conv.run · reqs) := by
  have : (reqs.map (i, ·)).map Prod.snd = reqs := by simp
  rw [Sys.conv, Sys.afterWork_requests, List.map_append, this, Conv.run_append]
  rfl

theorem getElem?_set_eq_some {calls : List Call} {i j : Nat} {x c : Call}
    (h : (calls.set i x)[j]? = some c) : j = i ∧ c = x ∨ j ≠ i ∧ calls[j]? = some c := by
  rw [List.getElem?_set] at h
  split_ifs at h with hij
  · exact .inl ⟨hij.symm, (Option.some.inj h).symm⟩
  · exact .inr ⟨Ne.symm hij, h⟩

/-- Two calls past the latch are one, as long as at most one is. -/
theorem pastLatch_index_eq {calls : List Call} (hle : countPc calls Pc.pastLatch ≤ 1)
    {i j : Nat} {c c' : Call} (hi : calls[i]? = some c) (hj : calls[j]? = some c')
    (hpi : c.pc.pastLatch = true) (hpj : c'.pc.pastLatch = true) : i = j := by
  by_contra hne
  have hset := countPc_set Pc.pastLatch hi { c with pc := .start }
  have hpos : 0 < countPc (calls.set i { c with pc := .start }) Pc.pastLatch :=
    countPc_pos (List.getElem?_mem (by rwa [List.getElem?_set_ne hne])) hpj
  rw [hpi] at hset
  simp only [Pc.pastLatch, Bool.toNat_true, Bool.toNat_false] at hset
  omega

/-- What every reachable state says about the conversation: the requests so far are a path
of the automaton, none of them before the latch is set; a leader past the latch is at a point
that agrees with the conversation; and every request of the conversation was made by one
call, the one past the latch if there is one. -/
structure ConvInv (s : Sys) : Prop where
  accepted : s.conv.isSome = true
  idle : s.order.internalProps.isCancelingFromWaitCancelOrder = false → s.conv = some .idle
  leader : ∀ (j : Nat) (call : Call) (ch : Nat) (w : WorkPc) (q : Conv),
    s.calls[j]? = some call → call.pc = .working ch w →
    w.region ≠ .entry → s.conv = some q → q ∈ w.convStates
  speaker : ∀ r ∈ s.requests, r.2.isConversation = true →
    ∀ (j : Nat) (call : Call), s.calls[j]? = some call → call.pc.pastLatch = true → r.1 = j
  oneSpeaker : ∀ r ∈ s.requests, ∀ r' ∈ s.requests, r.2.isConversation = true →
    r'.2.isConversation = true → r.1 = r'.1

section Inv

variable {allowed : AllowedEventSourceType} {s s' : Sys}

theorem ConvInv.init (o : Order) : ConvInv (Sys.init o) where
  accepted := rfl
  idle _ := rfl
  leader _ _ _ _ _ h := Option.noConfusion h
  speaker _ h := absurd h (List.not_mem_nil _)
  oneSpeaker _ h := absurd h (List.not_mem_nil _)

/-- A move that makes no request, keeps the latch and brings no call past it. -/
theorem ConvInv.frame (hi : ConvInv s) (hr : s'.requests = s.requests)
    (hl : s'.order.internalProps.isCancelingFromWaitCancelOrder =
      s.order.internalProps.isCancelingFromWaitCancelOrder)
    (hc : ∀ (j : Nat) (c' : Call), s'.calls[j]? = some c' → c'.pc.pastLatch = true →
      ∃ c, s.calls[j]? = some c ∧ c.pc = c'.pc) : ConvInv s' := by
  have hconv : s'.conv = s.conv := by rw [Sys.conv, hr]; rfl
  refine ⟨hconv ▸ hi.accepted, fun h => hconv ▸ hi.idle (hl ▸ h),
    fun j c' ch w q hj hpc hreg hq => ?_, fun r hr' hrc j c' hj hp => ?_, hr ▸ hi.oneSpeaker⟩
  · obtain ⟨c, hjc, hpc'⟩ := hc j c' hj (by rw [hpc]; exact decide_eq_true hreg)
    exact hi.leader j c ch w q hjc (hpc'.trans hpc) hreg (hconv ▸ hq)
  · obtain ⟨c, hjc, hpc'⟩ := hc j c' hj hp
    exact hi.speaker r (hr ▸ hr') hrc j c hjc (hpc' ▸ hp)

/-- Replacing call `i` by one at the same point, or at one before the latch. -/
theorem set_frame {i : Nat} {call x : Call} (h : s.calls[i]? = some call)
    (hx : x.pc.pastLatch = true → x.pc = call.pc) :
    ∀ (j : Nat) (c' : Call), (s.calls.set i x)[j]? = some c' → c'.pc.pastLatch = true →
      ∃ c, s.calls[j]? = some c ∧ c.pc = c'.pc := by
  intro j c' hj hp
  rcases getElem?_set_eq_some hj with ⟨rfl, rfl⟩ | ⟨-, hj⟩
  · exact ⟨call, h, (hx hp).symm⟩
  · exact ⟨c', hj, rfl⟩

theorem Pc.pastLatch_iff {pc : Pc} :
    pc.pastLatch = true ↔ ∃ ch w, pc = .working ch w ∧ w.region ≠ .entry := by
  cases pc with
  | working ch w =>
      exact ⟨fun h => ⟨ch, w, rfl, of_decide_eq_true h⟩,
        fun ⟨_, _, h, hr⟩ => by cases h; exact decide_eq_true hr⟩
  | _ => exact ⟨Bool.noConfusion, fun ⟨_, _, h, _⟩ => Pc.noConfusion h⟩

section Work

variable {i : Nat} {call : Call} {ch : Nat} {w : WorkPc} {c : Choice} {f : Flow}
  {reqs : List Request}

/-- A step of a leader before the latch: it asks nothing of the conversation, and passes the
latch only to find the conversation not begun. -/
theorem ConvInv.workEntry (hi : ConvInv s) (hpc : call.pc = .working ch w)
    (hr : w.region = .entry)
    (hw : workStep allowed call.checkOrderFills call.cancelled s.order w c = some (f, reqs)) :
    ConvInv (s.afterWork i call ch w f reqs) := by
  have hE := workStep_entry hr hw
  have hconv : (s.afterWork i call ch w f reqs).conv = s.conv := by
    rw [Sys.conv_afterWork]
    cases s.conv with
    | none => rfl
    | some q => exact Conv.run_of_not_isConversation q hE
  -- call `i` gets past the latch only through it, found clear before anything was asked
  have hpass : ∀ ch' w', f.pc ch = .working ch' w' → w'.region ≠ .entry →
      w' = .loopHead ∧ s.conv = some .idle := by
    intro ch' w' hf hreg
    cases f with
    | next v =>
        obtain ⟨-, rfl⟩ : ch = ch' ∧ v = w' := by simpa [Flow.pc] using hf
        rcases workStep_next hw with ⟨hv, -⟩ | ⟨-, hlatch, rfl⟩ | ⟨rfl, -, -⟩ | ⟨rfl, -, -⟩
        · exact absurd (hv.trans hr) hreg
        · exact ⟨rfl, hi.idle hlatch⟩
        all_goals cases hr
    | ok | err _ => cases hf
  have hold : ∀ r ∈ (s.afterWork i call ch w f reqs).requests, r.2.isConversation = true →
      r ∈ s.requests := by
    intro r hr' hrc
    rw [Sys.afterWork_requests] at hr'
    rcases List.mem_append.mp hr' with hr' | hr'
    · exact hr'
    · obtain ⟨q, hq, rfl⟩ := List.mem_map.mp hr'
      rw [hE q hq] at hrc
      cases hrc
  refine ⟨hconv ▸ hi.accepted, fun h' => hconv ▸ hi.idle ?_,
    fun j c' ch' w' q hj hpc' hreg hq => ?_, fun r hr' hrc j c' hj hp => ?_,
    fun r hr' r' hr'' hrc hrc' => hi.oneSpeaker r (hold r hr' hrc) r' (hold r' hr'' hrc') hrc hrc'⟩
  · rw [Sys.afterWork_order, WorkPc.orderAfter_latch, Bool.or_eq_false_iff] at h'
    exact h'.2
  · rw [Sys.afterWork_calls] at hj
    rcases getElem?_set_eq_some hj with ⟨rfl, rfl⟩ | ⟨-, hj⟩
    · obtain ⟨rfl, hidle⟩ := hpass ch' w' hpc' hreg
      rw [hconv, hidle] at hq
      cases hq
      decide
    · exact hi.leader j c' ch' w' q hj hpc' hreg (hconv ▸ hq)
  · rw [Sys.afterWork_calls] at hj
    rcases getElem?_set_eq_some hj with ⟨rfl, rfl⟩ | ⟨-, hj⟩
    · obtain ⟨ch', w', hf, hreg⟩ := Pc.pastLatch_iff.mp hp
      have hno := Conv.run_eq_idle (hpass ch' w' hf hreg).2 r.2
        (List.mem_map_of_mem _ (hold r hr' hrc))
      rw [hno] at hrc
      cases hrc
    · exact hi.speaker r (hold r hr' hrc) hrc j c' hj hp

/-- A step of the leader past the latch: its requests follow the automaton, and it is the
only call that can make them. -/
theorem ConvInv.workLoop (hi : ConvInv s) (hI : Inv s) (h : s.calls[i]? = some call)
    (hpc : call.pc = .working ch w) (hr : w.region ≠ .entry)
    (hw : workStep allowed call.checkOrderFills call.cancelled s.order w c = some (f, reqs)) :
    ConvInv (s.afterWork i call ch w f reqs) := by
  have hpast : call.pc.pastLatch = true := by rw [hpc]; exact decide_eq_true hr
  have hlatch := hI.latch
  have hcount : 0 < countPc s.calls Pc.pastLatch := countPc_pos (List.getElem?_mem h) hpast
  have hset : s.order.internalProps.isCancelingFromWaitCancelOrder = true := by
    cases hX : s.order.internalProps.isCancelingFromWaitCancelOrder
    · rw [hX, Bool.toNat_false] at hlatch
      omega
    · rfl
  have hle : countPc s.calls Pc.pastLatch ≤ 1 := by
    rw [hset, Bool.toNat_true] at hlatch
    omega
  obtain ⟨q, hsq⟩ := Option.isSome_iff_exists.mp hi.accepted
  obtain ⟨q', hrun, hnext⟩ := workStep_conv (hi.leader i call ch w q h hpc hr hsq) hw
  have hconv : (s.afterWork i call ch w f reqs).conv = some q' := by
    rw [Sys.conv_afterWork, hsq]
    exact hrun
  -- every other call is before the latch
  have hother : ∀ j c', j ≠ i → s.calls[j]? = some c' → c'.pc.pastLatch = false :=
    fun j c' hji hj => Bool.eq_false_iff.mpr fun hp => hji (pastLatch_index_eq hle hj h hp hpast)
  -- every request of the conversation was made by call `i`
  have hby : ∀ r ∈ (s.afterWork i call ch w f reqs).requests, r.2.isConversation = true →
      r.1 = i := by
    intro r hr' hrc
    rw [Sys.afterWork_requests] at hr'
    rcases List.mem_append.mp hr' with hr' | hr'
    · exact hi.speaker r hr' hrc i call h hpast
    · obtain ⟨q, -, rfl⟩ := List.mem_map.mp hr'
      rfl
  refine ⟨by rw [hconv]; rfl, fun h' => ?_, fun j c' ch' w' q'' hj hpc' hreg hq => ?_,
    fun r hr' hrc j c' hj hp => ?_,
    fun r hr' r' hr'' hrc hrc' => (hby r hr' hrc).trans (hby r' hr'' hrc').symm⟩
  · rw [Sys.afterWork_order, WorkPc.orderAfter_latch, hset, Bool.or_true] at h'
    cases h'
  · rw [Sys.afterWork_calls] at hj
    rcases getElem?_set_eq_some hj with ⟨rfl, rfl⟩ | ⟨hji, hj⟩
    · rw [hconv] at hq
      cases hq
      cases f with
      | next v =>
          obtain ⟨-, rfl⟩ : ch = ch' ∧ v = w' := by simpa [Flow.pc] using hpc'
          exact hnext _ rfl
      | ok | err _ => cases hpc'
    · have hp := hother j c' hji hj
      rw [hpc'] at hp
      exact absurd hreg (of_decide_eq_false hp)
  · rw [Sys.afterWork_calls] at hj
    rcases getElem?_set_eq_some hj with ⟨rfl, rfl⟩ | ⟨hji, hj⟩
    · exact hby r hr' hrc
    · rw [hother j c' hji hj] at hp
      cases hp

end Work

theorem ConvInv.of_runCall (hi : ConvInv s) (hI : Inv s) {i : Nat} {call : Call}
    (h : s.calls[i]? = some call) {c : Choice} (hs : runCall allowed s i call c = some s') :
    ConvInv s' := by
  rcases runCall_cases hs with ⟨-, -, ch, -, rfl⟩ | ⟨-, -, -, rfl⟩ | ⟨ch, -, rfl⟩ |
      ⟨ch, pos, -, -, rfl⟩ | ⟨ch, w, f, reqs, hpc, hw, rfl⟩ | ⟨ch, -, rfl⟩ | ⟨ch, r, -, -, rfl⟩
  · exact hi.frame rfl rfl (set_frame h fun h => Bool.noConfusion h)
  · exact hi.frame rfl rfl (set_frame h fun h => Bool.noConfusion h)
  · exact hi.frame rfl rfl (set_frame h fun h => Bool.noConfusion h)
  · exact hi.frame rfl rfl (set_frame h fun h => Bool.noConfusion h)
  · by_cases hr : w.region = .entry
    · exact hi.workEntry hpc hr hw
    · exact hi.workLoop hI h hpc hr hw
  · exact hi.frame rfl rfl (set_frame h fun h => Bool.noConfusion h)
  · refine hi.frame (Sys.remove_requests s) (by rw [Sys.setPc_order, Sys.remove_order]) ?_
    rw [Sys.setPc_calls, Sys.remove_calls]
    exact set_frame h fun h => Bool.noConfusion h

theorem ConvInv.of_step (hi : ConvInv s) (hI : Inv s) {a : Act}
    (hs : step allowed s a = some s') : ConvInv s' := by
  cases a with
  | call checkOrderFills =>
      cases hs
      refine hi.frame rfl rfl fun j c' hj hp => ?_
      rw [List.getElem?_append] at hj
      split_ifs at hj
      · exact ⟨c', hj, rfl⟩
      · obtain rfl := List.mem_singleton.mp (List.getElem?_mem hj)
        cases hp
  | run i c =>
      obtain ⟨call, h, hs⟩ := Option.bind_eq_some.mp hs
      exact hi.of_runCall hI h hs
  | cancel i =>
      obtain ⟨call, h, rfl⟩ := Option.map_eq_some'.mp hs
      exact hi.frame rfl rfl (set_frame h fun _ => rfl)
  | drop i =>
      obtain ⟨call, h, hs⟩ := Option.bind_eq_some.mp hs
      rcases dropCall_cases hs with ⟨_, _, -, rfl⟩ | ⟨_, _, -, -, rfl⟩ <;>
        exact hi.frame rfl rfl (set_frame h fun h => Bool.noConfusion h)
  | updateOrder o =>
      simp only [step] at hs
      split at hs
      · rename_i hc
        cases hs
        exact hi.frame rfl hc.1 fun j c' hj _ => ⟨c', hj, rfl⟩
      · cases hs

theorem Reachable.convInv (hs : Reachable allowed s) : ConvInv s := by
  induction hs with
  | init o => exact ConvInv.init o
  | step a hs h ih => exact ih.of_step hs.inv h

end Inv

/-- Over every run, of any number of calls in any interleaving and whatever the environment
does, the requests the coordinator has made on the exchange adapter are a path of the
conversation automaton `Conv`, and every request of the conversation (all but the creation
wait) was made by one and the same call. -/
theorem conversation_follows_protocol (allowed : AllowedEventSourceType) :
    ∀ s, Reachable allowed s →
      (∃ q, Conv.idle.run (s.requests.map Prod.snd) = some q) ∧
      ∀ r ∈ s.requests, ∀ r' ∈ s.requests, r.2.isConversation = true →
        r'.2.isConversation = true → r.1 = r'.1 := by
  intro s hs
  have hi := hs.convInv
  exact ⟨Option.isSome_iff_exists.mp hi.accepted, hi.oneSpeaker⟩

/-- A created order the venue knows by the exchange order id `"1"`. -/
def knownOrder : Order := ⟨.created, some "1", 0, ⟨false, none, none, none, false⟩⟩

/-- Call 0 starts a cancel request, gets a `ParsingError`, polls `get_order_info`, learns the
order is `Canceled` and reports it through `handle_cancel_order_succeeded`; then call 1 comes
and finds the entry occupied. -/
def hookSchedule : List Act :=
  [.call false, .run 0 .go, .run 0 .go, .run 0 .go, .run 0 .go, .run 0 .go,
    .run 0 (.cancelOrder (some (some ⟨.error ⟨.parsingError, "", none⟩⟩))), .run 0 .go,
    .run 0 (.orderInfo (.ok ⟨.canceled, 0⟩) true), .call false, .run 1 .go]

def hookState : Sys :=
  (run .all (Sys.init knownOrder) hookSchedule).getD (Sys.init knownOrder)

/-- `conversation_follows_protocol` after a cancel request, an order-info request and a hook,
with a second call waiting on the entry. -/
theorem hookState_follows_protocol :
    Reachable .all hookState ∧ hookState.conv = some .looping ∧
      hookState.calls.map (·.pc) = [.working 0 .checkFinishedInLoop, .occupied 0] ∧
      ((∃ q, Conv.idle.run (hookState.requests.map Prod.snd) = some q) ∧
        ∀ r ∈ hookState.requests, ∀ r' ∈ hookState.requests, r.2.isConversation = true →
          r'.2.isConversation = true → r.1 = r'.1) :=
  have hs : Reachable .all hookState := (Reachable.init knownOrder).run
    (show run .all _ hookSchedule = some hookState from rfl)
  ⟨hs, rfl, rfl, conversation_follows_protocol .all hookState hs⟩

end Cancel
end Mmb
