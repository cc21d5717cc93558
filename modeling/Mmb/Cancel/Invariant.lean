import Mmb.Cancel.Gate

/-!
# The invariant of the cancel coordinator

`Inv` is what holds in every reachable state of the system of
`wait_cancel_order` calls: who holds the shard lock, who owns the map entry,
which channel every call knows of, how many `Sender`s and values the entry's
channel has, what the latch accounts for, why a leader is past its retry
loop, and why a call holds `Ok(())`.

The proof follows the transitions of `Gate`: one lemma per kind of move
(`Inv.enterOccupied`, `Inv.enterVacant`, `Inv.subscribe`, `Inv.release`,
`Inv.work`, `Inv.send`, `Inv.remove`, `Inv.dropLeader`) and per environment
action, assembled in `Inv.of_step` and `Reachable.inv`.  What a step of the work
does to the latch's accounts is said once, in `workStep_pastLatch`.
-/

namespace Mmb
namespace Cancel

/-- What holds in every reachable state.  The shard lock is held exactly by a follower that
holds its entry, and by one at most; the entry is there exactly while one leader is between
its insert and its removal, and every channel a call knows of is the entry's.  The entry's
channel has the map's `Sender` and the leader's `tx` until it lets go, and carries a value
exactly once its leader has sent `Ok(())`.  The latch accounts for every call past it and
every event hook called.  A leader after its retry loop has a finished order or a cancelled
token; a leader whose work returned `Ok(())` saw the order finished or the latch set; and a
call that returned `Ok(())` has a finished order, the latch set, or its token cancelled. -/
structure Inv (s : Sys) : Prop where
  lock : countPc s.calls Pc.holdsEntry = s.locked.toNat
  owner : countPc s.calls Pc.isOwner = s.entry.isSome.toNat
  channel : ∀ call ∈ s.calls, ∀ ch, call.pc.channel = some ch → s.entry = some ch
  senders : ∀ ch, s.entry = some ch → (s.channels ch).senders = 1 + countPc s.calls Pc.holdsTx
  sent : ∀ ch, s.entry = some ch → (s.channels ch).sent = countPc s.calls Pc.sentOk
  latch : countPc s.calls Pc.pastLatch + s.requests.countP (·.2.isAddEvent) ≤
    s.order.internalProps.isCancelingFromWaitCancelOrder.toNat
  afterLoop : ∀ call ∈ s.calls, ∀ ch w, call.pc = .working ch w → w.region = .afterLoop →
    s.order.isFinished = true ∨ call.cancelled = true
  leaderOk : ∀ call ∈ s.calls, call.pc.okFromWork = true →
    s.order.isFinished = true ∨ s.order.internalProps.isCancelingFromWaitCancelOrder = true
  returnedOk : ∀ call ∈ s.calls, call.pc = .done .ok →
    s.order.isFinished = true ∨ s.order.internalProps.isCancelingFromWaitCancelOrder = true ∨
      call.cancelled = true

theorem Inv.init (o : Order) : Inv (Sys.init o) where
  lock := rfl
  owner := rfl
  channel _ h := absurd h (List.not_mem_nil _)
  senders _ h := Option.noConfusion h
  sent _ h := Option.noConfusion h
  latch := Nat.zero_le _
  afterLoop _ h := absurd h (List.not_mem_nil _)
  leaderOk _ h := absurd h (List.not_mem_nil _)
  returnedOk _ h := absurd h (List.not_mem_nil _)

/-- What every call has survives replacing call `i` by one that has it too. -/
theorem forall_mem_set {P : Call → Prop} {calls : List Call} (hP : ∀ c ∈ calls, P c) (i : Nat)
    {c' : Call} (h' : P c') : ∀ c ∈ calls.set i c', P c := fun c hc =>
  (List.mem_or_eq_of_mem_set hc).elim (hP c) (· ▸ h')

/-! ## The points a leader's work moves between -/

@[simp] theorem Flow.pc_holdsEntry (ch : Nat) (f : Flow) : (f.pc ch).holdsEntry = false := by
  cases f <;> rfl

@[simp] theorem Flow.pc_isOwner (ch : Nat) (f : Flow) : (f.pc ch).isOwner = true := by
  cases f <;> rfl

@[simp] theorem Flow.pc_sentOk (ch : Nat) (f : Flow) : (f.pc ch).sentOk = false := by
  cases f <;> rfl

@[simp] theorem Flow.pc_channel (ch : Nat) (f : Flow) : (f.pc ch).channel = some ch := by
  cases f <;> rfl

/-- A step of the work adds to the calls past the latch and to the event hooks called only
by passing the latch found clear. -/
theorem workStep_pastLatch {allowed : AllowedEventSourceType} {checkOrderFills cancelled : Bool}
    {o : Order} {w : WorkPc} {c : Choice} {f : Flow} {reqs : List Request}
    (hw : workStep allowed checkOrderFills cancelled o w c = some (f, reqs)) (ch : Nat) :
    (f.pc ch).pastLatch.toNat + reqs.countP Request.isAddEvent ≤
      (Pc.working ch w).pastLatch.toNat +
        (decide (w = .latch) && !o.internalProps.isCancelingFromWaitCancelOrder).toNat := by
  rcases workStep_addEvent hw with h0 | ⟨rfl, hnext, h1⟩
  · rw [h0]
    cases f with
    | next w' =>
        rcases workStep_next hw with ⟨hr, -⟩ | ⟨rfl, hl, rfl⟩ | ⟨rfl, -, rfl⟩ | ⟨rfl, -, rfl⟩
        · simp only [Flow.pc, Pc.pastLatch, hr, add_zero]
          exact Nat.le_add_right _ _
        · simp [Flow.pc, Pc.pastLatch, hl]
        all_goals simp [Flow.pc, Pc.pastLatch]
    | ok | err _ => simp [Flow.pc, Pc.pastLatch]
  · cases f with
    | next w' => exact absurd rfl (hnext w')
    | ok | err _ => simp [Flow.pc, Pc.pastLatch, h1]

/-- A step of the work into the part after the retry loop leaves it through a cancelled token
or a finished order. -/
theorem workStep_afterLoop {allowed : AllowedEventSourceType} {checkOrderFills cancelled : Bool}
    {o : Order} {w w' : WorkPc} {c : Choice} {reqs : List Request}
    (hw : workStep allowed checkOrderFills cancelled o w c = some (.next w', reqs))
    (hr : w'.region = .afterLoop) :
    w.region = .afterLoop ∨ cancelled = true ∨ o.isFinished = true := by
  rcases workStep_next hw with ⟨hr', -⟩ | ⟨rfl, -, rfl⟩ | ⟨rfl, h, rfl⟩ | ⟨rfl, h, rfl⟩
  · exact .inl (hr' ▸ hr)
  · cases hr
  · exact .inr (.inl h)
  · exact .inr (.inr h)

/-! ## One lemma per move -/

section Moves

variable {s : Sys} {i : Nat} {call : Call}

@[simp] theorem Sys.dropSender_channels_self (s : Sys) (ch : Nat) :
    (s.dropSender ch).channels ch = ⟨(s.channels ch).senders - 1, (s.channels ch).sent⟩ := by
  simp [Sys.dropSender]

/-- With no holder and no owner, no call knows of a channel. -/
theorem channel_eq_none {calls : List Call}
    (hE : countPc calls Pc.holdsEntry = 0) (hO : countPc calls Pc.isOwner = 0) :
    ∀ call ∈ calls, call.pc.channel = none := by
  intro call hc
  rw [countPc_eq_zero] at hE hO
  have := Pc.channel_isSome call.pc
  simp_all

/-- `entry()` finds the entry `Occupied` and keeps the lock. -/
theorem Inv.enterOccupied (hi : Inv s) (h : s.calls[i]? = some call) (hpc : call.pc = .start)
    (hl : s.locked = false) {ch : Nat} (he : s.entry = some ch) :
    Inv { s.setPc i call (.occupied ch) with locked := true } := by
  have c : ∀ p : Pc → Bool, p (.occupied ch) = p .start →
      countPc (s.calls.set i { call with pc := .occupied ch }) p = countPc s.calls p :=
    fun p => countPc_set_of_eq p h hpc
  have cE := countPc_set Pc.holdsEntry h { call with pc := .occupied ch }
  have hlock := hi.lock
  simp only [hpc, hl, Pc.holdsEntry, Bool.toNat_true, Bool.toNat_false, add_zero] at cE hlock
  refine ⟨?_, ?_, ?_, ?_, ?_, ?_, ?_, ?_, ?_⟩ <;> simp only [Sys.setPc_calls]
  · simp only [Bool.toNat_true]; omega
  · rw [c Pc.isOwner rfl]; exact hi.owner
  · exact forall_mem_set hi.channel i fun ch' hch => by cases hch; exact he
  · intro ch' he'; rw [c Pc.holdsTx rfl]; exact hi.senders ch' he'
  · intro ch' he'; rw [c Pc.sentOk rfl]; exact hi.sent ch' he'
  · rw [c Pc.pastLatch rfl]; exact hi.latch
  · exact forall_mem_set hi.afterLoop i fun _ _ h _ => Pc.noConfusion h
  · exact forall_mem_set hi.leaderOk i nofun
  · exact forall_mem_set hi.returnedOk i nofun

/-- `entry()` finds the entry `Vacant`: the call inserts a fresh channel and leads. -/
theorem Inv.enterVacant (hi : Inv s) (h : s.calls[i]? = some call) (hpc : call.pc = .start)
    (he : s.entry = none) :
    Inv (s.setPc i call (.working s.nextChannel .begin)).insert := by
  have c : ∀ p : Pc → Bool, p (.working s.nextChannel .begin) = p .start →
      countPc (s.calls.set i { call with pc := .working s.nextChannel .begin }) p =
        countPc s.calls p :=
    fun p => countPc_set_of_eq p h hpc
  have cO := countPc_set Pc.isOwner h { call with pc := .working s.nextChannel .begin }
  have cT := countPc_set Pc.holdsTx h { call with pc := .working s.nextChannel .begin }
  have hO := hi.owner
  have hTO := @countPc_le Pc.holdsTx Pc.isOwner (fun _ => Pc.isOwner_of_holdsTx) s.calls
  have hSO := @countPc_le Pc.sentOk Pc.isOwner (fun _ => Pc.isOwner_of_sentOk) s.calls
  simp only [hpc, he, Pc.isOwner, Pc.holdsTx, Option.isSome_none, Bool.toNat_true,
    Bool.toNat_false, add_zero] at cO cT hO
  refine ⟨?_, ?_, ?_, ?_, ?_, ?_, ?_, ?_, ?_⟩ <;>
    simp only [Sys.insert_calls, Sys.insert_locked, Sys.insert_entry, Sys.insert_channels,
      Sys.insert_requests, Sys.insert_order, Sys.setPc_calls, Sys.setPc_locked,
      Sys.setPc_nextChannel, Sys.setPc_channels, Sys.setPc_requests, Sys.setPc_order]
  · rw [c Pc.holdsEntry rfl]; exact hi.lock
  · simp only [Option.isSome_some, Bool.toNat_true]; omega
  · refine forall_mem_set (fun c hc ch' hch => ?_) i fun ch' hch => by cases hch; rfl
    exact absurd (hi.channel c hc ch' hch) (by simp [he])
  · rintro ch' ⟨⟩; simp; omega
  · rintro ch' ⟨⟩; rw [c Pc.sentOk rfl]; simp; omega
  · rw [c Pc.pastLatch rfl]; exact hi.latch
  · exact forall_mem_set hi.afterLoop i fun _ _ hcw hr => by cases hcw; cases hr
  · exact forall_mem_set hi.leaderOk i nofun
  · exact forall_mem_set hi.returnedOk i nofun

/-- `tx.subscribe()`, under the entry. -/
theorem Inv.subscribe (hi : Inv s) (h : s.calls[i]? = some call) {ch : Nat}
    (hpc : call.pc = .occupied ch) (pos : Nat) : Inv (s.setPc i call (.waiting ch pos)) := by
  have c : ∀ p : Pc → Bool, p (.waiting ch pos) = p (.occupied ch) →
      countPc (s.calls.set i { call with pc := .waiting ch pos }) p = countPc s.calls p :=
    fun p => countPc_set_of_eq p h hpc
  refine ⟨?_, ?_, ?_, ?_, ?_, ?_, ?_, ?_, ?_⟩ <;>
    simp only [Sys.setPc_calls, Sys.setPc_locked, Sys.setPc_entry, Sys.setPc_channels,
      Sys.setPc_requests, Sys.setPc_order]
  · rw [c Pc.holdsEntry rfl]; exact hi.lock
  · rw [c Pc.isOwner rfl]; exact hi.owner
  · exact forall_mem_set hi.channel i fun ch' hch =>
      hi.channel call (List.getElem?_mem h) ch' (by rw [hpc]; exact hch)
  · intro ch' he'; rw [c Pc.holdsTx rfl]; exact hi.senders ch' he'
  · intro ch' he'; rw [c Pc.sentOk rfl]; exact hi.sent ch' he'
  · rw [c Pc.pastLatch rfl]; exact hi.latch
  · exact forall_mem_set hi.afterLoop i fun _ _ h _ => Pc.noConfusion h
  · exact forall_mem_set hi.leaderOk i nofun
  · exact forall_mem_set hi.returnedOk i nofun

/-- The follower's `select!` ends, or its future is dropped: the entry, and the lock, go.
`Ok(())` needs `rx.recv()` or the token ready. -/
theorem Inv.release (hi : Inv s) (h : s.calls[i]? = some call) {ch pos : Nat}
    (hpc : call.pc = .waiting ch pos) (r : Ret)
    (hr : r = .ok → ((s.channels ch).ready pos || call.cancelled) = true) :
    Inv { s.setPc i call (.done r) with locked := false } := by
  have c : ∀ p : Pc → Bool, p (.done r) = p (.waiting ch pos) →
      countPc (s.calls.set i { call with pc := .done r }) p = countPc s.calls p :=
    fun p => countPc_set_of_eq p h hpc
  have cE := countPc_set Pc.holdsEntry h { call with pc := .done r }
  have hlock := hi.lock
  have := Bool.toNat_le s.locked
  simp only [hpc, Pc.holdsEntry, Bool.toNat_true, Bool.toNat_false, add_zero] at cE
  refine ⟨?_, ?_, ?_, ?_, ?_, ?_, ?_, ?_, ?_⟩ <;>
    simp only [Sys.setPc_calls, Sys.setPc_entry, Sys.setPc_channels, Sys.setPc_requests,
      Sys.setPc_order]
  · simp only [Bool.toNat_false]; omega
  · rw [c Pc.isOwner rfl]; exact hi.owner
  · exact forall_mem_set hi.channel i nofun
  · intro ch' he'; rw [c Pc.holdsTx rfl]; exact hi.senders ch' he'
  · intro ch' he'; rw [c Pc.sentOk rfl]; exact hi.sent ch' he'
  · rw [c Pc.pastLatch rfl]; exact hi.latch
  · exact forall_mem_set hi.afterLoop i fun _ _ h _ => Pc.noConfusion h
  · exact forall_mem_set hi.leaderOk i nofun
  · refine forall_mem_set hi.returnedOk i fun hok => ?_
    obtain rfl : r = .ok := by injection hok
    have he := hi.channel call (List.getElem?_mem h) ch (by rw [hpc]; rfl)
    rcases Bool.or_eq_true_iff.mp (hr rfl) with hready | hc
    · rcases Bool.or_eq_true_iff.mp hready with hsent | hclosed
      · -- a value came: the leader sent `Ok(())`
        have hpos : 0 < countPc s.calls Pc.sentOk := by
          rw [← hi.sent ch he]; exact Nat.zero_lt_of_lt (of_decide_eq_true hsent)
        obtain ⟨c, hc, hok⟩ := List.countP_pos_iff.mp hpos
        exact (hi.leaderOk c hc (Pc.okFromWork_of_sentOk hok)).elim .inl (.inr ∘ .inl)
      · -- every `Sender` gone: impossible while the entry holds one
        have := hi.senders ch he
        simp only [beq_iff_eq] at hclosed; omega
    · exact .inr (.inr hc)

/-- The leader's `tx.send(outcome)`, then `tx` is dropped. -/
theorem Inv.send (hi : Inv s) (h : s.calls[i]? = some call) {ch : Nat}
    (hpc : call.pc = .sending ch) :
    Inv ((s.setPc i call (.guard ch .ok)).send ch) := by
  have c : ∀ p : Pc → Bool, p (.guard ch .ok) = p (.sending ch) →
      countPc (s.calls.set i { call with pc := .guard ch .ok }) p = countPc s.calls p :=
    fun p => countPc_set_of_eq p h hpc
  have cT := countPc_set Pc.holdsTx h { call with pc := .guard ch .ok }
  have cS := countPc_set Pc.sentOk h { call with pc := .guard ch .ok }
  have hmem := List.getElem?_mem h
  have he := hi.channel call hmem ch (by rw [hpc]; rfl)
  simp only [hpc, Pc.holdsTx, Pc.sentOk, Bool.toNat_true, Bool.toNat_false, add_zero] at cT cS
  refine ⟨?_, ?_, ?_, ?_, ?_, ?_, ?_, ?_, ?_⟩ <;>
    simp only [Sys.send_calls, Sys.send_locked, Sys.send_entry, Sys.send_channels,
      Sys.send_requests, Sys.send_order, Sys.setPc_calls, Sys.setPc_locked, Sys.setPc_entry,
      Sys.setPc_channels, Sys.setPc_requests, Sys.setPc_order]
  · rw [c Pc.holdsEntry rfl]; exact hi.lock
  · rw [c Pc.isOwner rfl]; exact hi.owner
  · exact forall_mem_set hi.channel i fun ch' hch => by cases hch; exact he
  · intro ch' he'
    obtain rfl : ch' = ch := Option.some.inj (he'.symm.trans he)
    have := hi.senders ch' he
    simp only [Function.update_same]; omega
  · intro ch' he'
    obtain rfl : ch' = ch := Option.some.inj (he'.symm.trans he)
    have := hi.sent ch' he
    simp only [Function.update_same]; omega
  · rw [c Pc.pastLatch rfl]; exact hi.latch
  · exact forall_mem_set hi.afterLoop i fun _ _ h _ => Pc.noConfusion h
  · exact forall_mem_set hi.leaderOk i fun _ => hi.leaderOk call hmem (by rw [hpc]; rfl)
  · exact forall_mem_set hi.returnedOk i nofun

/-- The scope guard's `remove`, with the lock free: the leader's entry goes. -/
theorem Inv.remove (hi : Inv s) (h : s.calls[i]? = some call) {ch : Nat} {r : Ret}
    (hpc : call.pc = .guard ch r) (hl : s.locked = false) :
    Inv (s.remove.setPc i call (.done r)) := by
  have c : ∀ p : Pc → Bool, p (.done r) = p (.guard ch r) →
      countPc (s.calls.set i { call with pc := .done r }) p = countPc s.calls p :=
    fun p => countPc_set_of_eq p h hpc
  have cO := countPc_set Pc.isOwner h { call with pc := .done r }
  have howner := hi.owner
  have := Bool.toNat_le s.entry.isSome
  simp only [hpc, Pc.isOwner, Bool.toNat_true, Bool.toNat_false, add_zero] at cO
  have hE' : countPc (s.calls.set i { call with pc := .done r }) Pc.holdsEntry = 0 := by
    rw [c Pc.holdsEntry rfl, hi.lock, hl]; rfl
  have hO' : countPc (s.calls.set i { call with pc := .done r }) Pc.isOwner = 0 := by omega
  refine ⟨?_, ?_, ?_, ?_, ?_, ?_, ?_, ?_, ?_⟩ <;>
    simp only [Sys.setPc_calls, Sys.setPc_locked, Sys.setPc_entry, Sys.setPc_requests,
      Sys.setPc_order, Sys.remove_calls, Sys.remove_locked, Sys.remove_entry,
      Sys.remove_requests, Sys.remove_order]
  · rw [hE', hl]; rfl
  · exact hO'
  · intro c hc ch' hch
    simp [channel_eq_none hE' hO' c hc] at hch
  · rintro ch' ⟨⟩
  · rintro ch' ⟨⟩
  · rw [c Pc.pastLatch rfl]; exact hi.latch
  · exact forall_mem_set hi.afterLoop i fun _ _ h _ => Pc.noConfusion h
  · exact forall_mem_set hi.leaderOk i nofun
  · refine forall_mem_set hi.returnedOk i fun hok => ?_
    obtain rfl : r = .ok := by injection hok
    exact (hi.leaderOk call (List.getElem?_mem h) (by rw [hpc]; rfl)).elim .inl (.inr ∘ .inl)

/-- A step of the leader's work. -/
theorem Inv.work {allowed : AllowedEventSourceType} (hi : Inv s) (h : s.calls[i]? = some call)
    {ch : Nat} {w : WorkPc} (hpc : call.pc = .working ch w) {c : Choice} {f : Flow}
    {reqs : List Request}
    (hw : workStep allowed call.checkOrderFills call.cancelled s.order w c = some (f, reqs)) :
    Inv (s.afterWork i call ch w f reqs) := by
  have c : ∀ p : Pc → Bool, p (f.pc ch) = p (.working ch w) →
      countPc (s.calls.set i { call with pc := f.pc ch }) p = countPc s.calls p :=
    fun p => countPc_set_of_eq p h hpc
  have cT := countPc_set Pc.holdsTx h { call with pc := f.pc ch }
  have cL := countPc_set Pc.pastLatch h { call with pc := f.pc ch }
  rw [hpc] at cT cL
  dsimp only at cT cL
  change _ + 1 = _ + (f.pc ch).holdsTx.toNat at cT
  have hmem := List.getElem?_mem h
  have he := hi.channel call hmem ch (by rw [hpc]; rfl)
  have hL := workStep_pastLatch hw ch
  have hlatch := hi.latch
  -- the latch only gets set, and the order stays finished
  have hX : s.order.internalProps.isCancelingFromWaitCancelOrder = true →
      (w.orderAfter s.order).internalProps.isCancelingFromWaitCancelOrder = true := fun h => by
    rw [WorkPc.orderAfter_latch, h, Bool.or_true]
  refine ⟨?_, ?_, ?_, ?_, ?_, ?_, ?_, ?_, ?_⟩ <;>
    simp only [Sys.afterWork_calls, Sys.afterWork_locked, Sys.afterWork_entry,
      Sys.afterWork_requests, Sys.afterWork_order, WorkPc.orderAfter_isFinished]
  · rw [c Pc.holdsEntry (Flow.pc_holdsEntry ch f)]; exact hi.lock
  · rw [c Pc.isOwner (Flow.pc_isOwner ch f)]; exact hi.owner
  · exact forall_mem_set hi.channel i fun ch' hch => by
      simp only [Flow.pc_channel, Option.some.injEq] at hch; exact hch ▸ he
  · intro ch' he'
    obtain rfl : ch' = ch := Option.some.inj (he'.symm.trans he)
    have := hi.senders ch' he
    rw [Sys.afterWork_channels]
    cases hT : (f.pc ch').holdsTx <;> simp only [hT, Bool.toNat_true, Bool.toNat_false] at cT <;>
      simp only [hT, ite_true, ite_false, Sys.dropSender_channels_self, Bool.false_eq_true] <;>
      omega
  · intro ch' he'
    obtain rfl : ch' = ch := Option.some.inj (he'.symm.trans he)
    rw [Sys.afterWork_channels, c Pc.sentOk (Flow.pc_sentOk ch' f), ← hi.sent ch' he]
    split <;> simp
  · have hA : (reqs.map (i, ·)).countP (·.2.isAddEvent) = reqs.countP Request.isAddEvent := by
      rw [List.countP_map]; rfl
    rw [List.countP_append, hA, WorkPc.orderAfter_latch]
    cases hX : s.order.internalProps.isCancelingFromWaitCancelOrder <;>
      simp only [hX, Bool.not_false, Bool.not_true, Bool.and_true, Bool.and_false, Bool.or_true,
        Bool.or_false, Bool.toNat_true, Bool.toNat_false] at hlatch hL ⊢ <;> omega
  · refine forall_mem_set hi.afterLoop i fun ch' w' hcw hr => ?_
    cases f with
    | next v =>
        obtain ⟨-, rfl⟩ : ch = ch' ∧ v = w' := by simpa [Flow.pc] using hcw
        rcases workStep_afterLoop hw hr with hr' | hc' | hf
        · exact hi.afterLoop call hmem ch w hpc hr'
        · exact .inr hc'
        · exact .inl hf
    | ok | err _ => cases hcw
  · refine forall_mem_set (fun c hc hok => (hi.leaderOk c hc hok).imp_right hX) i fun hok => ?_
    cases f with
    | ok =>
        rcases workStep_ok hw with ⟨-, hf⟩ | ⟨-, hl⟩ | rfl
        · exact .inl hf
        · exact .inr (hX hl)
        · -- the end of the work is past the latch, which is set
          have : 0 < countPc s.calls Pc.pastLatch :=
            countPc_pos hmem (by rw [hpc]; rfl)
          refine .inr (hX ?_)
          cases hb : s.order.internalProps.isCancelingFromWaitCancelOrder
          · simp only [hb, Bool.toNat_false] at hlatch; omega
          · rfl
    | next _ | err _ => cases hok
  · exact forall_mem_set (fun c hc hok => (hi.returnedOk c hc hok).imp_right (Or.imp_left hX)) i
      fun hok => by cases f <;> cases hok

/-- The leader's future is dropped at an await of its work: `tx` goes, and the guard runs. -/
theorem Inv.dropLeader (hi : Inv s) (h : s.calls[i]? = some call) {ch : Nat} {w : WorkPc}
    (hpc : call.pc = .working ch w) :
    Inv ((s.setPc i call (.guard ch .dropped)).dropSender ch) := by
  have c : ∀ p : Pc → Bool, p (.guard ch .dropped) = p (.working ch w) →
      countPc (s.calls.set i { call with pc := .guard ch .dropped }) p = countPc s.calls p :=
    fun p => countPc_set_of_eq p h hpc
  have cT := countPc_set Pc.holdsTx h { call with pc := .guard ch .dropped }
  have cL := countPc_set Pc.pastLatch h { call with pc := .guard ch .dropped }
  have he := hi.channel call (List.getElem?_mem h) ch (by rw [hpc]; rfl)
  simp only [hpc, Pc.holdsTx, Pc.pastLatch, Bool.toNat_true, Bool.toNat_false, add_zero] at cT cL
  refine ⟨?_, ?_, ?_, ?_, ?_, ?_, ?_, ?_, ?_⟩ <;>
    simp only [Sys.dropSender_calls, Sys.dropSender_locked, Sys.dropSender_entry,
      Sys.dropSender_requests, Sys.dropSender_order, Sys.setPc_calls, Sys.setPc_locked,
      Sys.setPc_entry, Sys.setPc_requests, Sys.setPc_order]
  · rw [c Pc.holdsEntry rfl]; exact hi.lock
  · rw [c Pc.isOwner rfl]; exact hi.owner
  · exact forall_mem_set hi.channel i fun ch' hch => by cases hch; exact he
  · intro ch' he'
    obtain rfl : ch' = ch := Option.some.inj (he'.symm.trans he)
    have := hi.senders ch' he
    simp only [Sys.dropSender_channels_self, Sys.setPc_channels]; omega
  · intro ch' he'
    obtain rfl : ch' = ch := Option.some.inj (he'.symm.trans he)
    simp only [Sys.dropSender_channels_self, Sys.setPc_channels, c Pc.sentOk rfl]
    exact hi.sent ch' he
  · have := hi.latch; omega
  · exact forall_mem_set hi.afterLoop i fun _ _ h _ => Pc.noConfusion h
  · exact forall_mem_set hi.leaderOk i nofun
  · exact forall_mem_set hi.returnedOk i nofun

theorem Inv.newCall (hi : Inv s) (checkOrderFills : Bool) :
    Inv { s with calls := s.calls ++ [⟨.start, checkOrderFills, false⟩] } := by
  have hnew : ∀ {P : Call → Prop}, (∀ c ∈ s.calls, P c) → P ⟨.start, checkOrderFills, false⟩ →
      ∀ c ∈ s.calls ++ [⟨.start, checkOrderFills, false⟩], P c := by
    intro P hP h' c hc
    rcases List.mem_append.mp hc with hc | hc
    · exact hP c hc
    · exact (List.mem_singleton.mp hc) ▸ h'
  refine ⟨?_, ?_, hnew hi.channel nofun, ?_, ?_, ?_, hnew hi.afterLoop nofun,
    hnew hi.leaderOk nofun, hnew hi.returnedOk nofun⟩
  · simpa [Pc.holdsEntry] using hi.lock
  · simpa [Pc.isOwner] using hi.owner
  · intro ch he; simpa [Pc.holdsTx] using hi.senders ch he
  · intro ch he; simpa [Pc.sentOk] using hi.sent ch he
  · simpa [Pc.pastLatch] using hi.latch

theorem Inv.cancel (hi : Inv s) (h : s.calls[i]? = some call) :
    Inv { s with calls := s.calls.set i { call with cancelled := true } } := by
  have c := fun p => Nat.add_right_cancel (countPc_set p h { call with cancelled := true })
  have hmem := List.getElem?_mem h
  refine ⟨(c _).trans hi.lock, (c _).trans hi.owner,
    forall_mem_set hi.channel i (hi.channel call hmem), ?_, ?_, (c Pc.pastLatch).symm ▸ hi.latch,
    forall_mem_set hi.afterLoop i fun _ _ _ _ => .inr rfl,
    forall_mem_set hi.leaderOk i (hi.leaderOk call hmem),
    forall_mem_set hi.returnedOk i fun _ => .inr (.inr rfl)⟩
  · intro ch' he'; exact (hi.senders ch' he').trans (by rw [c])
  · intro ch' he'; exact (hi.sent ch' he').trans (by rw [c])

theorem Inv.updateOrder (hi : Inv s) {o : Order}
    (hlatch : o.internalProps.isCancelingFromWaitCancelOrder =
      s.order.internalProps.isCancelingFromWaitCancelOrder)
    (hfin : s.order.isFinished = true → o.isFinished = true) : Inv { s with order := o } where
  lock := hi.lock
  owner := hi.owner
  channel := hi.channel
  senders := hi.senders
  sent := hi.sent
  latch := hlatch ▸ hi.latch
  afterLoop c hc ch w hcw hr := (hi.afterLoop c hc ch w hcw hr).imp_left hfin
  leaderOk c hc hok := (hi.leaderOk c hc hok).imp hfin hlatch.trans
  returnedOk c hc hok := (hi.returnedOk c hc hok).imp hfin (Or.imp_left hlatch.trans)

end Moves

/-! ## Every step, every run -/

section Steps

variable {allowed : AllowedEventSourceType} {s s' : Sys}

theorem Inv.of_runCall (hi : Inv s) {i : Nat} {call : Call} (h : s.calls[i]? = some call)
    {c : Choice} (hs : runCall allowed s i call c = some s') : Inv s' := by
  rcases runCall_cases hs with ⟨hpc, hl, ch, he, rfl⟩ | ⟨hpc, -, he, rfl⟩ | ⟨ch, hpc, rfl⟩ |
      ⟨ch, pos, hpc, hr, rfl⟩ | ⟨ch, w, f, reqs, hpc, hw, rfl⟩ | ⟨ch, hpc, rfl⟩ |
      ⟨ch, r, hpc, hl, rfl⟩
  · exact hi.enterOccupied h hpc hl he
  · exact hi.enterVacant h hpc he
  · exact hi.subscribe h hpc _
  · exact hi.release h hpc _ fun _ => hr
  · exact hi.work h hpc hw
  · exact hi.send h hpc
  · exact hi.remove h hpc hl

theorem Inv.of_dropCall (hi : Inv s) {i : Nat} {call : Call} (h : s.calls[i]? = some call)
    (hs : dropCall s i call = some s') : Inv s' := by
  rcases dropCall_cases hs with ⟨ch, pos, hpc, rfl⟩ | ⟨ch, w, hpc, -, rfl⟩
  · exact hi.release h hpc _ nofun
  · exact hi.dropLeader h hpc

theorem Inv.of_step (hi : Inv s) {a : Act} (hs : step allowed s a = some s') : Inv s' := by
  cases a with
  | call checkOrderFills => cases hs; exact hi.newCall checkOrderFills
  | run i c =>
      obtain ⟨call, h, hs⟩ := Option.bind_eq_some.mp hs
      exact hi.of_runCall h hs
  | cancel i =>
      obtain ⟨call, h, rfl⟩ := Option.map_eq_some'.mp hs
      exact hi.cancel h
  | drop i =>
      obtain ⟨call, h, hs⟩ := Option.bind_eq_some.mp hs
      exact hi.of_dropCall h hs
  | updateOrder o =>
      simp only [step] at hs
      split at hs
      · rename_i hc; cases hs; exact hi.updateOrder hc.1 hc.2
      · cases hs

/-- Every reachable state satisfies the invariant. -/
theorem Reachable.inv (hs : Reachable allowed s) : Inv s := by
  induction hs with
  | init o => exact Inv.init o
  | step a _ h ih => exact ih.of_step h

end Steps

end Cancel
end Mmb
