import Mmb.Cancel.Work

/-!
# `wait_cancel_order` as a system of concurrent calls

This module models every call of `Exchange::wait_cancel_order` on one order
together with the state they share:

* the `wait_cancel_order` `DashMap`'s entry for the order's client order id,
  holding the `Sender` of a broadcast channel, and the write lock of the
  entry's shard.  `entry()` takes the lock and the `Entry` value keeps it for
  as long as it lives; `remove()` takes it for its own duration;
* the capacity-1 broadcast channels: how many `Sender`s are alive and how
  many values were sent; a receiver subscribed after `pos` values sees a
  value once more were sent, and `Closed` once every `Sender` is dropped;
* the shared order, and the log of every request made on the exchange
  adapter, tagged with the calling call.

Each call has a program counter `Pc`.  A step of a call (`Act.run`) runs the
code from one point where it can wait (an await, or a lock it blocks on) to
the next; the environment starts new calls, cancels tokens, drops futures at
their awaits and changes the order from outside.  `step` is a computable
function, so a schedule can be run (`run`) and its outcome computed.

The schedules are those of a scheduler that may run any call whose next
step is enabled: a follower whose `rx.recv()` is ready can always be polled.
Every result about what a schedule can reach holds for any scheduler, since
a real one runs fewer schedules; a result about states where no call can move
holds only for a scheduler that polls every ready task, which tokio's
multi-thread runtime does not promise once a worker blocks in a synchronous
lock with a woken task in its LIFO slot.

The lock is taken and released within one step by the `Vacant` arm (the
`RefMut` returned by `insert` is a temporary) and by the scope guard's
`remove`, so neither keeps it across a step; the `Occupied` arm keeps it from
`entry()` until its `select!` ends.
-/

namespace Mmb
namespace Cancel

/-- How a call of `wait_cancel_order` ends: with its outcome, or `dropped` when the caller
dropped its future at an await. -/
inductive Ret
  | ok
  | err (e : WorkError)
  | dropped
  deriving DecidableEq, Repr

/-- The points of `wait_cancel_order` where a call can wait: before `entry(..)`, which waits
for the shard lock; holding the `Occupied` entry before `tx.subscribe()`; in the follower's
`select!`, still holding the entry, subscribed when `pos` values had been sent; the leader in
`wait_cancel_order_work` and at `tx.send(outcome)`; the scope guard's `remove`, which waits for
the shard lock, before returning `r`; and returned or dropped. `ch` names the broadcast channel
whose `Sender` the map entry holds. -/
inductive Pc
  | start
  | occupied (ch : Nat)
  | waiting (ch : Nat) (pos : Nat)
  | working (ch : Nat) (w : WorkPc)
  | sending (ch : Nat)
  | guard (ch : Nat) (r : Ret)
  | done (r : Ret)
  deriving DecidableEq, Repr

namespace Pc

/-- A follower holds its `Entry`, and with it the shard lock, at `occupied` and `waiting`; a
leader owns the entry from its insert to the end of its guard's `remove`, and holds `tx` until
it has sent, failed or been dropped. -/
def holdsEntry : Pc → Bool
  | .occupied _ | .waiting _ _ => true
  | _ => false

def isOwner : Pc → Bool
  | .working _ _ | .sending _ | .guard _ _ => true
  | _ => false

def holdsTx : Pc → Bool
  | .working _ _ | .sending _ => true
  | _ => false

def sentOk : Pc → Bool
  | .guard _ .ok => true
  | _ => false

def okFromWork : Pc → Bool
  | .sending _ | .guard _ .ok => true
  | _ => false

def channel : Pc → Option Nat
  | .occupied ch | .waiting ch _ | .working ch _ | .sending ch | .guard ch _ => some ch
  | .start | .done _ => none

def pastLatch : Pc → Bool
  | .working _ w => decide (w.region ≠ .entry)
  | _ => false

theorem channel_isSome (pc : Pc) : pc.channel.isSome = (pc.holdsEntry || pc.isOwner) := by
  cases pc <;> rfl

theorem isOwner_of_holdsTx {pc : Pc} (h : pc.holdsTx = true) : pc.isOwner = true := by
  cases pc <;> simp_all [holdsTx, isOwner]

theorem isOwner_of_sentOk {pc : Pc} (h : pc.sentOk = true) : pc.isOwner = true := by
  cases pc <;> simp_all [sentOk, isOwner]

theorem okFromWork_of_sentOk {pc : Pc} (h : pc.sentOk = true) : pc.okFromWork = true := by
  rcases pc with _ | _ | _ | _ | _ | ⟨_, _ | _ | _⟩ | _ <;> simp_all [sentOk, okFromWork]

theorem isOwner_of_pastLatch {pc : Pc} (h : pc.pastLatch = true) : pc.isOwner = true := by
  cases pc <;> simp_all [pastLatch, isOwner]

end Pc

/-- One call of `wait_cancel_order`; `cancelled` is
`cancellation_token.is_cancellation_requested()`. -/
structure Call where
  pc : Pc
  checkOrderFills : Bool
  cancelled : Bool
  deriving DecidableEq, Repr

/-- A `tokio::sync::broadcast` channel of capacity 1: its live `Sender`s and the values sent
so far. -/
structure Channel where
  senders : Nat
  sent : Nat
  deriving DecidableEq, Repr

/-- The state the calls share: the order, the calls, the map's entry for the client order id
(the channel of the `Sender` it holds), the write lock of its shard, the channels, the name of
the next channel `broadcast::channel(1)` creates, and every request made on the exchange
adapter with the index of the call that made it. -/
structure Sys where
  order : Order
  calls : List Call
  entry : Option Nat
  locked : Bool
  channels : Nat → Channel
  nextChannel : Nat
  requests : List (Nat × Request)

def Sys.init (o : Order) : Sys :=
  ⟨o, [], none, false, fun _ => ⟨0, 0⟩, 0, []⟩

@[simps]
def Sys.setPc (s : Sys) (i : Nat) (call : Call) (pc : Pc) : Sys :=
  { s with calls := s.calls.set i { call with pc := pc } }

@[simps]
def Sys.dropSender (s : Sys) (ch : Nat) : Sys :=
  { s with
    channels := Function.update s.channels ch
      ⟨(s.channels ch).senders - 1, (s.channels ch).sent⟩ }

/-- How many of `calls` are at a point where `p` holds. -/
def countPc (calls : List Call) (p : Pc → Bool) : Nat :=
  calls.countP fun c => p c.pc

/-- Replacing call `i` changes a count by what the call leaves and what it reaches. -/
theorem countPc_set (p : Pc → Bool) {calls : List Call} {i : Nat} {call : Call}
    (h : calls[i]? = some call) (c' : Call) :
    countPc (calls.set i c') p + (p call.pc).toNat = countPc calls p + (p c'.pc).toNat := by
  obtain ⟨hi, rfl⟩ := List.getElem?_eq_some_iff.mp h
  have hle : (p calls[i].pc).toNat ≤ countPc calls p := by
    cases hp : p calls[i].pc
    · exact Nat.zero_le _
    · exact List.countP_pos_iff.mpr ⟨_, List.getElem_mem hi, hp⟩
  simp only [countPc, List.countP_set _ _ _ _ hi] at hle ⊢
  cases hp : p calls[i].pc <;> cases p c'.pc <;> simp only [hp, Bool.toNat_true] at hle ⊢ <;>
    simp <;> omega

theorem countPc_set_of_eq (p : Pc → Bool) {calls : List Call} {i : Nat} {call : Call}
    (h : calls[i]? = some call) {pc pc' : Pc} (hpc : call.pc = pc) (hp : p pc' = p pc) :
    countPc (calls.set i { call with pc := pc' }) p = countPc calls p := by
  have := countPc_set p h { call with pc := pc' }
  rw [hpc, ← hp] at this
  exact Nat.add_right_cancel this

@[simp] theorem countPc_append_start (p : Pc → Bool) (calls : List Call) (checkOrderFills : Bool) :
    countPc (calls ++ [⟨.start, checkOrderFills, false⟩]) p =
      countPc calls p + (p .start).toNat := by
  simp only [countPc, List.countP_append, List.countP_singleton]
  cases p .start <;> rfl

@[simp] theorem countPc_nil (p : Pc → Bool) : countPc [] p = 0 := rfl

theorem countPc_pos {p : Pc → Bool} {calls : List Call} {call : Call} (hc : call ∈ calls)
    (hp : p call.pc = true) : 0 < countPc calls p :=
  List.countP_pos_iff.mpr ⟨call, hc, hp⟩

theorem countPc_eq_zero {p : Pc → Bool} {calls : List Call} :
    countPc calls p = 0 ↔ ∀ call ∈ calls, p call.pc = false := by
  simp [countPc]

theorem countPc_le {p q : Pc → Bool} (hpq : ∀ pc, p pc = true → q pc = true) (calls : List Call) :
    countPc calls p ≤ countPc calls q :=
  List.countP_mono_left fun c _ => hpq c.pc

/-- `self.wait_cancel_order.remove(&id)`, which takes and releases the shard lock: the entry
goes, and with it the map's `Sender`. -/
def Sys.remove (s : Sys) : Sys :=
  match s.entry with
  | some ch => { s.dropSender ch with entry := none }
  | none => s

section Remove

variable (s : Sys)

@[simp] theorem Sys.remove_calls : s.remove.calls = s.calls := by
  unfold Sys.remove; split <;> rfl

@[simp] theorem Sys.remove_order : s.remove.order = s.order := by
  unfold Sys.remove; split <;> rfl

@[simp] theorem Sys.remove_requests : s.remove.requests = s.requests := by
  unfold Sys.remove; split <;> rfl

@[simp] theorem Sys.remove_locked : s.remove.locked = s.locked := by
  unfold Sys.remove; split <;> rfl

@[simp] theorem Sys.remove_entry : s.remove.entry = none := by
  unfold Sys.remove; split <;> simp_all

end Remove

/-- A follower's `rx.recv()` is ready: a value came after it subscribed, or every
`Sender` is gone. -/
def Channel.ready (c : Channel) (pos : Nat) : Bool :=
  pos < c.sent || c.senders == 0

/-- Where a leader goes when its work leads to `f`: on to the next point, to `tx.send` on
`Ok`, or out through the `?` to its guard on an error. -/
def Flow.pc (ch : Nat) : Flow → Pc
  | .next w => .working ch w
  | .ok => .sending ch
  | .err e => .guard ch (.err e)

/-- The state after call `i`'s work took a step from `w` that led to `f` and made
`reqs`; the `?` drops `tx`. -/
def Sys.afterWork (s : Sys) (i : Nat) (call : Call) (ch : Nat) (w : WorkPc) (f : Flow)
    (reqs : List Request) : Sys :=
  let s := { s.setPc i call (f.pc ch) with
    order := w.orderAfter s.order
    requests := s.requests ++ reqs.map (i, ·) }
  match f with
  | .err _ => s.dropSender ch
  | _ => s

section AfterWork

variable (s : Sys) (i : Nat) (call : Call) (ch : Nat) (w : WorkPc) (f : Flow)
  (reqs : List Request)

@[simp] theorem Sys.afterWork_calls :
    (s.afterWork i call ch w f reqs).calls = s.calls.set i { call with pc := f.pc ch } := by
  cases f <;> rfl

@[simp] theorem Sys.afterWork_order :
    (s.afterWork i call ch w f reqs).order = w.orderAfter s.order := by
  cases f <;> rfl

@[simp] theorem Sys.afterWork_requests :
    (s.afterWork i call ch w f reqs).requests = s.requests ++ reqs.map (i, ·) := by
  cases f <;> rfl

@[simp] theorem Sys.afterWork_entry : (s.afterWork i call ch w f reqs).entry = s.entry := by
  cases f <;> rfl

@[simp] theorem Sys.afterWork_locked : (s.afterWork i call ch w f reqs).locked = s.locked := by
  cases f <;> rfl

theorem Sys.afterWork_channels :
    (s.afterWork i call ch w f reqs).channels =
      if (f.pc ch).holdsTx then s.channels else (s.dropSender ch).channels := by
  cases f <;> rfl

end AfterWork

/-- `vacant_entry.insert(tx.clone())` of a fresh `broadcast::channel(1)`, whose receiver is
dropped at once: two `Sender`s, the leader's `tx` and the map's clone. -/
@[simps]
def Sys.insert (s : Sys) : Sys :=
  { s with
    entry := some s.nextChannel
    channels := Function.update s.channels s.nextChannel ⟨2, 0⟩
    nextChannel := s.nextChannel + 1 }

/-- `tx.send(outcome)` on channel `ch`, then `tx` is dropped before the guard runs. -/
@[simps]
def Sys.send (s : Sys) (ch : Nat) : Sys :=
  { s with
    channels :=
      Function.update s.channels ch ⟨(s.channels ch).senders - 1, (s.channels ch).sent + 1⟩ }

/-- Call `i`, which is `call`, takes its next step; `c` decides what it awaits. -/
def runCall (allowed : AllowedEventSourceType) (s : Sys) (i : Nat) (call : Call) (c : Choice) :
    Option Sys :=
  match call.pc with
  | .start =>
      if s.locked then none
      else
        match s.entry with
        | some ch => some { s.setPc i call (.occupied ch) with locked := true }
        -- the lock goes with the `RefMut` that `insert` returns
        | none => some (s.setPc i call (.working s.nextChannel .begin)).insert
  | .occupied ch => some (s.setPc i call (.waiting ch (s.channels ch).sent))
  | .waiting ch pos =>
      if (s.channels ch).ready pos || call.cancelled then
        some { s.setPc i call (.done .ok) with locked := false }
      else none
  | .working ch w =>
      (workStep allowed call.checkOrderFills call.cancelled s.order w c).map
        fun r => s.afterWork i call ch w r.1 r.2
  | .sending ch => some ((s.setPc i call (.guard ch .ok)).send ch)
  | .guard _ r => if s.locked then none else some (s.remove.setPc i call (.done r))
  | .done _ => none

/-- Every step a call can take, from each of its points. -/
theorem runCall_cases {allowed : AllowedEventSourceType} {s s' : Sys} {i : Nat} {call : Call}
    {c : Choice} (hs : runCall allowed s i call c = some s') :
    (call.pc = .start ∧ s.locked = false ∧
      ∃ ch, s.entry = some ch ∧ s' = { s.setPc i call (.occupied ch) with locked := true }) ∨
    (call.pc = .start ∧ s.locked = false ∧ s.entry = none ∧
      s' = (s.setPc i call (.working s.nextChannel .begin)).insert) ∨
    (∃ ch, call.pc = .occupied ch ∧ s' = s.setPc i call (.waiting ch (s.channels ch).sent)) ∨
    (∃ ch pos, call.pc = .waiting ch pos ∧ ((s.channels ch).ready pos || call.cancelled) = true ∧
      s' = { s.setPc i call (.done .ok) with locked := false }) ∨
    (∃ ch w f reqs, call.pc = .working ch w ∧
      workStep allowed call.checkOrderFills call.cancelled s.order w c = some (f, reqs) ∧
      s' = s.afterWork i call ch w f reqs) ∨
    (∃ ch, call.pc = .sending ch ∧ s' = (s.setPc i call (.guard ch .ok)).send ch) ∨
    (∃ ch r, call.pc = .guard ch r ∧ s.locked = false ∧ s' = s.remove.setPc i call (.done r)) := by
  unfold runCall at hs
  split at hs
  · split at hs
    · cases hs
    · rename_i hl
      split at hs <;> cases hs
      · exact .inl ⟨‹_›, Bool.eq_false_iff.mpr hl, _, ‹_›, rfl⟩
      · exact .inr (.inl ⟨‹_›, Bool.eq_false_iff.mpr hl, ‹_›, rfl⟩)
  · cases hs; exact .inr (.inr (.inl ⟨_, ‹_›, rfl⟩))
  · split at hs
    · cases hs; exact .inr (.inr (.inr (.inl ⟨_, _, ‹_›, ‹_›, rfl⟩)))
    · cases hs
  · obtain ⟨⟨f, reqs⟩, hw, rfl⟩ := Option.map_eq_some'.mp hs
    exact .inr (.inr (.inr (.inr (.inl ⟨_, _, f, reqs, ‹_›, hw, rfl⟩))))
  · cases hs; exact .inr (.inr (.inr (.inr (.inr (.inl ⟨_, ‹_›, rfl⟩)))))
  · split at hs
    · cases hs
    · cases hs
      exact .inr (.inr (.inr (.inr (.inr (.inr ⟨_, _, ‹_›, Bool.eq_false_iff.mpr ‹_›, rfl⟩)))))
  · cases hs

theorem runCall_calls {allowed : AllowedEventSourceType} {s s' : Sys} {i : Nat} {call : Call}
    {c : Choice} (hs : runCall allowed s i call c = some s') :
    ∃ pc, s'.calls = s.calls.set i { call with pc := pc } := by
  rcases runCall_cases hs with ⟨-, -, ch, -, rfl⟩ | ⟨-, -, -, rfl⟩ | ⟨ch, -, rfl⟩ |
      ⟨ch, pos, -, -, rfl⟩ | ⟨ch, w, f, reqs, -, -, rfl⟩ | ⟨ch, -, rfl⟩ | ⟨ch, r, -, -, rfl⟩
  · exact ⟨_, rfl⟩
  · exact ⟨_, rfl⟩
  · exact ⟨_, rfl⟩
  · exact ⟨_, rfl⟩
  · exact ⟨_, Sys.afterWork_calls ..⟩
  · exact ⟨_, rfl⟩
  · exact ⟨_, by rw [Sys.setPc_calls, Sys.remove_calls]⟩

/-- The future of call `i` is dropped at an await: a follower lets go of its entry, a
leader drops `tx` and runs its guard. -/
def dropCall (s : Sys) (i : Nat) (call : Call) : Option Sys :=
  match call.pc with
  | .waiting _ _ => some { s.setPc i call (.done .dropped) with locked := false }
  | .working ch w =>
      if w.isAwait then some ((s.setPc i call (.guard ch .dropped)).dropSender ch) else none
  | _ => none

theorem dropCall_cases {s s' : Sys} {i : Nat} {call : Call} (hs : dropCall s i call = some s') :
    (∃ ch pos, call.pc = .waiting ch pos ∧
      s' = { s.setPc i call (.done .dropped) with locked := false }) ∨
    (∃ ch w, call.pc = .working ch w ∧ w.isAwait = true ∧
      s' = (s.setPc i call (.guard ch .dropped)).dropSender ch) := by
  unfold dropCall at hs
  split at hs
  · cases hs; exact .inl ⟨_, _, ‹_›, rfl⟩
  · split at hs
    · cases hs; exact .inr ⟨_, _, ‹_›, ‹_›, rfl⟩
    · cases hs
  · cases hs

theorem dropCall_calls {s s' : Sys} {i : Nat} {call : Call} (hs : dropCall s i call = some s') :
    ∃ pc, s'.calls = s.calls.set i { call with pc := pc } := by
  rcases dropCall_cases hs with ⟨ch, pos, -, rfl⟩ | ⟨ch, w, -, -, rfl⟩ <;> exact ⟨_, rfl⟩

/-- What happens next: a new call of `wait_cancel_order`; call `i` takes its next step, `c`
deciding what it awaits; call `i`'s token is cancelled; call `i`'s future is dropped; or code
outside the coordinator changes the order, which never writes the latch and never reopens a
finished order. -/
inductive Act
  | call (checkOrderFills : Bool)
  | run (i : Nat) (c : Choice)
  | cancel (i : Nat)
  | drop (i : Nat)
  | updateOrder (o : Order)

/-- One step of the system. -/
def step (allowed : AllowedEventSourceType) (s : Sys) : Act → Option Sys
  | .call checkOrderFills => some { s with calls := s.calls ++ [⟨.start, checkOrderFills, false⟩] }
  | .run i c => s.calls[i]?.bind fun call => runCall allowed s i call c
  | .cancel i =>
      s.calls[i]?.map fun call => { s with calls := s.calls.set i { call with cancelled := true } }
  | .drop i => s.calls[i]?.bind fun call => dropCall s i call
  | .updateOrder o =>
      if o.internalProps.isCancelingFromWaitCancelOrder =
            s.order.internalProps.isCancelingFromWaitCancelOrder ∧
          (s.order.isFinished = true → o.isFinished = true) then
        some { s with order := o }
      else none

/-- A schedule, run from `s`. -/
def run (allowed : AllowedEventSourceType) : Sys → List Act → Option Sys
  | s, [] => some s
  | s, a :: as => (step allowed s a).bind fun s' => run allowed s' as

/-- The states some schedule reaches from no call, on any order. -/
inductive Reachable (allowed : AllowedEventSourceType) : Sys → Prop
  | init (o : Order) : Reachable allowed (Sys.init o)
  | step {s s' : Sys} (a : Act) :
      Reachable allowed s → step allowed s a = some s' → Reachable allowed s'

theorem Reachable.run {allowed : AllowedEventSourceType} {s s' : Sys} {acts : List Act}
    (hs : Reachable allowed s) (h : run allowed s acts = some s') : Reachable allowed s' := by
  induction acts generalizing s with
  | nil => exact Option.some.inj h ▸ hs
  | cons a as ih =>
      obtain ⟨t, ht, hrun⟩ := Option.bind_eq_some.mp h
      exact ih (hs.step a ht) hrun

end Cancel
end Mmb
