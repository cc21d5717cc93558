import Mmb.Statistic.EventHandler

/-!
# What the interleaving of concurrent calls can change

Concurrent calls of `StatisticService` interleave between their critical
sections (`Section`), so one list of sections stands for every interleaving
of the calls.  Most of what a section does commutes with every other
section: the opened, canceled and fully filled counters count sections, the
two summaries add them up, the disposition executor counts skipped events,
and an account gets an entry with its first section.  What does not commute
is a section that inserts a client order id into the partially filled set
against one that removes the same id.

`interleavings_agree_iff` makes this exact.  For calls that pass each client
order id with its owner's account (the condition under which the partially
filled counters agree with the set), two orders of the same sections leave the
service started empty in the same state if and only if, for every client
order id, the last section that inserts or removes it is of the same kind in
both; and whatever the marks, the counters that only grow, the summaries, the
accounts with an entry and the skipped-events counter agree.  The proof
computes every field of the state after any run (`tally_runSections`,
`mem_runSections`, `mem_keys_runSections`, `skipped_runSections`) and reads
off which of them depend on the order.
-/

namespace Mmb
namespace Statistic

attribute [ext] TradePlaceAccountStatistic

/-- The counters of an account that only ever grow: opened, canceled and fully filled
orders, and the two summaries. -/
def TradePlaceAccountStatistic.tally (s : TradePlaceAccountStatistic) :
    Nat × Nat × Nat × Amount × Amount :=
  (s.openedOrdersCount, s.canceledOrdersCount, s.fullyFilledOrdersCount, s.summaryFilledAmount,
    s.summaryCommission)

/-- What a section adds to the tally of account `t`. -/
def Section.tallyOn (t : TradePlaceAccount) : Section → Nat × Nat × Nat × Amount × Amount
  | .registerCreatedOrder t' => if t' = t then (1, 0, 0, 0, 0) else (0, 0, 0, 0, 0)
  | .registerCanceledOrder t' => if t' = t then (0, 1, 0, 0, 0) else (0, 0, 0, 0, 0)
  | .registerCompletelyFilledOrder t' => if t' = t then (0, 0, 1, 0, 0) else (0, 0, 0, 0, 0)
  | .registerFilledAmount t' filledAmount =>
      if t' = t then (0, 0, 0, filledAmount, 0) else (0, 0, 0, 0, 0)
  | .registerCommission t' commission =>
      if t' = t then (0, 0, 0, 0, commission) else (0, 0, 0, 0, 0)
  | _ => (0, 0, 0, 0, 0)

/-- What a run of sections adds to the tally of account `t`. -/
def tallyOf (t : TradePlaceAccount) : List Section → Nat × Nat × Nat × Amount × Amount
  | [] => (0, 0, 0, 0, 0)
  | sec :: secs => sec.tallyOn t + tallyOf t secs

/-- The account a section gives an entry, whatever the state, once client order ids come
with their owners' accounts: a removal only touches an account that has one already. -/
def Section.account : Section → Option TradePlaceAccount
  | .registerCreatedOrder t | .registerCanceledOrder t | .registerCompletelyFilledOrder t
  | .registerFilledAmount t _ | .registerCommission t _ | .registerPartiallyFilledOrder t _ =>
      some t
  | .removeFilledOrderIfExist _ _ | .registerSkippedEvent => none

/-- For client order id `c`: `some true` for a section that puts `c` into the partially
filled set, `some false` for one that takes it out. -/
def Section.fillMark (c : ClientOrderId) : Section → Option Bool
  | .registerPartiallyFilledOrder _ c' => if c' = c then some true else none
  | .removeFilledOrderIfExist _ c' => if c' = c then some false else none
  | _ => none

/-- The last mark for `c` in a run of sections. -/
def lastSectionMark (c : ClientOrderId) (secs : List Section) : Option Bool :=
  (secs.filterMap (·.fillMark c)).getLast?

/-- `skipped_events_amount` of the disposition executor. -/
def StatisticService.skipped (svc : StatisticService) : Nat :=
  svc.statisticServiceState.dispositionExecutorStats.skippedEventsAmount

/-- Every client order id in the partially filled set has its owner's entry. -/
def KeysCover (owner : ClientOrderId → TradePlaceAccount) (svc : StatisticService) : Prop :=
  ∀ c ∈ svc.partiallyFilledOrders, owner c ∈ svc.stats.keys

/-! ## One section -/

section Section

variable (svc : StatisticService) (t : TradePlaceAccount)

@[simp] theorem TradePlaceStats.modify_keys (m : TradePlaceStats)
    (f : TradePlaceAccountStatistic → TradePlaceAccountStatistic) :
    (m.modify t f).keys = insert t m.keys := rfl

/-- An update of one entry adds `d` to its tally when it adds `d` to every tally. -/
theorem TradePlaceStats.tally_modify (m : TradePlaceStats) (t' : TradePlaceAccount)
    {f : TradePlaceAccountStatistic → TradePlaceAccountStatistic}
    {d : Nat × Nat × Nat × Amount × Amount} (hf : ∀ s, (f s).tally = s.tally + d) :
    ((m.modify t' f).get t).tally = (m.get t).tally + if t' = t then d else (0, 0, 0, 0, 0) := by
  rw [modify_get]
  by_cases h : t' = t
  · subst h
    rw [if_pos rfl, if_pos rfl, hf]
  · rw [if_neg (Ne.symm h), if_neg h]
    exact (add_zero _).symm

theorem Section.run_tally (sec : Section) :
    ((sec.run svc).stats.get t).tally = (svc.stats.get t).tally + sec.tallyOn t := by
  cases sec with
  | registerPartiallyFilledOrder t' c =>
      show ((svc.registerPartiallyFilledOrder t' c).statisticServiceState.tradePlaceStats.get
        t).tally = _ + 0
      rw [registerPartiallyFilledOrder_get, add_zero]
      split
      · subst_vars
        rfl
      · rfl
  | removeFilledOrderIfExist t' c =>
      show ((svc.removeFilledOrderIfExist t' c).statisticServiceState.tradePlaceStats.get
        t).tally = _ + 0
      rw [removeFilledOrderIfExist_get, add_zero]
      split
      · subst_vars
        rfl
      · rfl
  | registerSkippedEvent => exact (add_zero _).symm
  | registerFilledAmount t' filledAmount =>
      refine @TradePlaceStats.tally_modify t svc.stats t' (·.addSummaryFilledAmount filledAmount)
        _ fun s => ?_
      simp only [TradePlaceAccountStatistic.tally, Prod.mk_add_mk, add_zero]
      rfl
  | registerCommission t' commission =>
      refine @TradePlaceStats.tally_modify t svc.stats t' (·.addSummaryCommission commission)
        _ fun s => ?_
      simp only [TradePlaceAccountStatistic.tally, Prod.mk_add_mk, add_zero]
      rfl
  | _ =>
      refine TradePlaceStats.tally_modify _ _ _ fun s => ?_
      simp only [TradePlaceAccountStatistic.tally, Prod.mk_add_mk, add_zero]
      rfl

theorem Section.run_skipped (sec : Section) :
    (sec.run svc).skipped = svc.skipped + if sec = .registerSkippedEvent then 1 else 0 := by
  cases sec with
  | registerPartiallyFilledOrder t c =>
      show (svc.registerPartiallyFilledOrder t c).skipped = svc.skipped + 0
      unfold StatisticService.registerPartiallyFilledOrder
      split <;> rfl
  | removeFilledOrderIfExist t c =>
      show (svc.removeFilledOrderIfExist t c).skipped = svc.skipped + 0
      unfold StatisticService.removeFilledOrderIfExist
      split <;> rfl
  | _ => rfl

theorem Section.mem_run (sec : Section) (c : ClientOrderId) :
    c ∈ (sec.run svc).partiallyFilledOrders ↔
      sec.fillMark c = some true ∨ (sec.fillMark c = none ∧ c ∈ svc.partiallyFilledOrders) := by
  cases sec with
  | registerPartiallyFilledOrder t c' =>
      by_cases h : c' = c <;> simp [Section.run, Section.fillMark, h, Ne.symm]
  | removeFilledOrderIfExist t c' =>
      by_cases h : c' = c <;> simp [Section.run, Section.fillMark, h, Ne.symm]
  | _ => exact ⟨fun h => .inr ⟨rfl, h⟩, fun h => h.elim Option.noConfusion And.right⟩

theorem Section.fillMark_eq_some_true {sec : Section} {c : ClientOrderId}
    (h : sec.fillMark c = some true) : ∃ t, sec = .registerPartiallyFilledOrder t c := by
  cases sec with
  | registerPartiallyFilledOrder t c' =>
      by_cases hc : c' = c
      · exact ⟨t, hc ▸ rfl⟩
      · simp [Section.fillMark, hc] at h
  | removeFilledOrderIfExist t c' =>
      by_cases hc : c' = c <;> simp [Section.fillMark, hc] at h
  | _ => cases h

variable {owner : ClientOrderId → TradePlaceAccount}

/-- Once client order ids come with their owners' accounts, the accounts with an entry after
a section are those before and the section's own. -/
theorem Section.mem_keys_run {sec : Section} (hsec : sec.Respects owner)
    (hK : KeysCover owner svc) :
    t ∈ (sec.run svc).stats.keys ↔ t ∈ svc.stats.keys ∨ sec.account = some t := by
  cases sec with
  | registerPartiallyFilledOrder t' c =>
      obtain rfl : t' = owner c := hsec
      simp only [Section.run, StatisticService.registerPartiallyFilledOrder, Section.account,
        Option.some.injEq]
      split
      · simp [StatisticService.stats, StatisticServiceState.registerPartiallyFilledOrder, or_comm,
          eq_comm]
      · exact ⟨.inl, fun h => h.elim id fun h => h ▸ hK c (not_not.mp ‹_›)⟩
  | removeFilledOrderIfExist t' c =>
      obtain rfl : t' = owner c := hsec
      simp only [Section.run, StatisticService.removeFilledOrderIfExist, Section.account,
        reduceCtorEq, or_false]
      split
      · rename_i hc
        simp only [StatisticService.stats, StatisticServiceState.decrementPartiallyFilledOrders,
          StatisticServiceState.updateStat_tradePlaceStats, TradePlaceStats.modify_keys,
          Finset.mem_insert, or_iff_right_iff_imp]
        exact fun h => h ▸ hK c hc
      · exact Iff.rfl
  | registerSkippedEvent => exact (or_iff_left Option.noConfusion).symm
  | _ =>
      simp [Section.run, Section.account, StatisticService.stats,
        StatisticService.registerCreatedOrder, StatisticServiceState.registerCreatedOrder,
        StatisticServiceState.registerCanceledOrder,
        StatisticServiceState.registerCompletelyFilledOrder,
        StatisticServiceState.registerFilledAmount, StatisticServiceState.registerCommission,
        or_comm, eq_comm]

theorem Section.run_keysCover {sec : Section} (hsec : sec.Respects owner)
    (hK : KeysCover owner svc) : KeysCover owner (sec.run svc) := by
  intro c hc
  rw [Section.mem_keys_run svc (owner c) hsec hK]
  rcases (Section.mem_run svc sec c).mp hc with hm | ⟨-, hc⟩
  · obtain ⟨t, rfl⟩ := Section.fillMark_eq_some_true hm
    exact .inr (congrArg some hsec)
  · exact .inl (hK c hc)

end Section

/-! ## A run of sections -/

section Run

variable {owner : ClientOrderId → TradePlaceAccount}

theorem runSections_cons (svc : StatisticService) (sec : Section) (secs : List Section) :
    runSections svc (sec :: secs) = runSections (sec.run svc) secs := rfl

theorem runSections_append_singleton (svc : StatisticService) (secs : List Section)
    (sec : Section) : runSections svc (secs ++ [sec]) = sec.run (runSections svc secs) := by
  simp [runSections]

theorem lastSectionMark_append_singleton (c : ClientOrderId) (secs : List Section)
    (sec : Section) :
    lastSectionMark c (secs ++ [sec]) = (sec.fillMark c).or (lastSectionMark c secs) := by
  cases h : sec.fillMark c <;> simp [lastSectionMark, h]

/-- The tally of an account is what every section added to it. -/
theorem tally_runSections (svc : StatisticService) (secs : List Section)
    (t : TradePlaceAccount) :
    ((runSections svc secs).stats.get t).tally = (svc.stats.get t).tally + tallyOf t secs := by
  induction secs generalizing svc with
  | nil => exact (add_zero _).symm
  | cons sec secs ih => rw [runSections_cons, ih, Section.run_tally, tallyOf, add_assoc]

/-- The order of the sections does not change what they add. -/
theorem tallyOf_perm (t : TradePlaceAccount) {secs secs' : List Section}
    (hperm : secs.Perm secs') : tallyOf t secs = tallyOf t secs' := by
  induction hperm with
  | nil => rfl
  | cons sec _ ih => rw [tallyOf, tallyOf, ih]
  | swap sec sec' secs => exact add_left_comm _ _ _
  | trans _ _ ih ih' => exact ih.trans ih'

theorem skipped_runSections (svc : StatisticService) (secs : List Section) :
    (runSections svc secs).skipped = svc.skipped + secs.count .registerSkippedEvent := by
  induction secs generalizing svc with
  | nil => rfl
  | cons sec secs ih =>
      rw [runSections_cons, ih, Section.run_skipped, List.count_cons]
      by_cases h : sec = .registerSkippedEvent
      · simp only [h, ↓reduceIte, beq_self_eq_true]
        omega
      · simp only [h, ↓reduceIte, beq_iff_eq, add_zero]

/-- A client order id is in the set after a run when the last section that marks it puts it
in, or when none marks it and it was in before. -/
theorem mem_runSections (svc : StatisticService) (secs : List Section) (c : ClientOrderId) :
    c ∈ (runSections svc secs).partiallyFilledOrders ↔
      lastSectionMark c secs = some true ∨
        (lastSectionMark c secs = none ∧ c ∈ svc.partiallyFilledOrders) := by
  induction secs using List.reverseRecOn with
  | nil => simp [lastSectionMark, runSections]
  | append_singleton secs sec ih =>
      rw [runSections_append_singleton, Section.mem_run, ih, lastSectionMark_append_singleton]
      cases sec.fillMark c <;> simp

/-- The accounts with an entry after a run are those before and those of its sections. -/
theorem mem_keys_runSections {svc : StatisticService} (hK : KeysCover owner svc)
    {secs : List Section} (hsecs : ∀ sec ∈ secs, sec.Respects owner) (t : TradePlaceAccount) :
    t ∈ (runSections svc secs).stats.keys ↔
      t ∈ svc.stats.keys ∨ ∃ sec ∈ secs, sec.account = some t := by
  induction secs generalizing svc with
  | nil => simp [runSections]
  | cons sec secs ih =>
      have hsec := hsecs sec (.head _)
      rw [runSections_cons, ih (Section.run_keysCover svc hsec hK) fun s hs => hsecs s (.tail _ hs),
        Section.mem_keys_run svc t hsec hK]
      simp only [List.mem_cons, exists_eq_or_imp, or_assoc]

end Run

/-! ## Two interleavings -/

/-- Two services are equal when they agree on every entry, the accounts with an entry, the
disposition executor's counter and the partially filled set. -/
theorem StatisticService.eq_of {svc svc' : StatisticService}
    (hget : svc.stats.get = svc'.stats.get) (hkeys : svc.stats.keys = svc'.stats.keys)
    (hskipped : svc.skipped = svc'.skipped)
    (hset : svc.partiallyFilledOrders = svc'.partiallyFilledOrders) : svc = svc' := by
  rcases svc with ⟨⟨⟨g, k, _⟩, ⟨d⟩⟩, s⟩
  rcases svc' with ⟨⟨⟨g', k', _⟩, ⟨d'⟩⟩, s'⟩
  cases hget
  cases hkeys
  cases hskipped
  cases hset
  rfl

theorem keysCover_new (owner : ClientOrderId → TradePlaceAccount) : KeysCover owner .new :=
  fun _ h => absurd h (Finset.not_mem_empty _)

theorem lastSectionMark_eq_none_iff_of_perm {secs secs' : List Section} (hperm : secs.Perm secs')
    (c : ClientOrderId) : lastSectionMark c secs = none ↔ lastSectionMark c secs' = none := by
  simp only [lastSectionMark, List.getLast?_eq_none_iff, ← List.length_eq_zero,
    (hperm.filterMap (·.fillMark c)).length_eq]

/-- Any two interleavings of the same critical sections, of calls that pass each client order
id with its owner's account, leave the service started empty in the same state exactly when,
for every client order id, the last section that puts it into or takes it out of the
partially filled set is of the same kind in both.  Whatever those marks, the two agree on
every account's opened, canceled and fully filled counters and both summaries, on the
accounts with an entry, and on the skipped-events counter. -/
theorem interleavings_agree_iff {owner : ClientOrderId → TradePlaceAccount}
    {secs secs' : List Section} (hsecs : ∀ sec ∈ secs, sec.Respects owner)
    (hperm : secs.Perm secs') :
    (runSections .new secs = runSections .new secs' ↔
      ∀ c, lastSectionMark c secs = lastSectionMark c secs') ∧
    (∀ t, ((runSections .new secs).stats.get t).tally =
      ((runSections .new secs').stats.get t).tally) ∧
    (runSections .new secs).stats.keys = (runSections .new secs').stats.keys ∧
    (runSections .new secs).skipped = (runSections .new secs').skipped := by
  have hsecs' : ∀ sec ∈ secs', sec.Respects owner := fun sec h => hsecs sec (hperm.mem_iff.mpr h)
  have hmem : ∀ l : List Section, ∀ c,
      c ∈ (runSections .new l).partiallyFilledOrders ↔ lastSectionMark c l = some true :=
    fun l c => by simp [mem_runSections, StatisticService.new]
  have htally : ∀ t, ((runSections .new secs).stats.get t).tally =
      ((runSections .new secs').stats.get t).tally := fun t => by
    rw [tally_runSections, tally_runSections, tallyOf_perm t hperm]
  have hkeys : (runSections .new secs).stats.keys = (runSections .new secs').stats.keys :=
    Finset.ext fun t => by
      rw [mem_keys_runSections (keysCover_new owner) hsecs,
        mem_keys_runSections (keysCover_new owner) hsecs']
      simp only [hperm.mem_iff]
  have hskipped : (runSections .new secs).skipped = (runSections .new secs').skipped := by
    rw [skipped_runSections, skipped_runSections, hperm.count_eq]
  refine ⟨⟨fun h c => ?_, fun hlast => ?_⟩, htally, hkeys, hskipped⟩
  · have hc := (hmem secs c).symm.trans (h ▸ hmem secs' c)
    have hn := lastSectionMark_eq_none_iff_of_perm hperm c
    -- a mark is `none`, `some true` or `some false`, and the two facts tell them apart
    generalize lastSectionMark c secs = a at hc hn
    generalize lastSectionMark c secs' = b at hc hn
    revert hc hn
    rcases a with _ | _ | _ <;> rcases b with _ | _ | _ <;> decide
  · have hset : (runSections .new secs).partiallyFilledOrders =
        (runSections .new secs').partiallyFilledOrders :=
      Finset.ext fun c => (hmem secs c).trans ((hlast c).symm ▸ (hmem secs' c).symm)
    have hown := ownedCounts_runSections (ownedCounts_new owner) hsecs
    have hown' := ownedCounts_runSections (ownedCounts_new owner) hsecs'
    refine StatisticService.eq_of (funext fun t => ?_) hkeys hskipped hset
    have ht := htally t
    simp only [TradePlaceAccountStatistic.tally, Prod.mk.injEq] at ht
    have hpf := (hown t).trans (hset ▸ (hown' t).symm)
    simp only [TradePlaceStats.partiallyFilled] at hpf
    ext <;> simp only [ht, hpf]

def exampleAccount : TradePlaceAccount := ⟨"account", "pair"⟩

/-- A partial fill of order `"1"` and a cancellation of order `"2"` on one account, run one
after the other. -/
def fillThenCancel : List Section :=
  (ServiceCall.registerPartiallyFilledOrder exampleAccount "1").sections ++
    (ServiceCall.registerCanceledOrder exampleAccount "2").sections

/-- The same two calls with the fill between the two sections of the cancellation. -/
def cancelAroundFill : List Section :=
  [.registerCanceledOrder exampleAccount, .registerPartiallyFilledOrder exampleAccount "1",
    .removeFilledOrderIfExist exampleAccount "2"]

/-- `interleavings_agree_iff` on two interleavings of a fill and a cancellation. -/
theorem fillThenCancel_agree_iff :
    (∀ sec ∈ fillThenCancel, sec.Respects fun _ => exampleAccount) ∧
      fillThenCancel.Perm cancelAroundFill ∧
      (runSections .new fillThenCancel = runSections .new cancelAroundFill ↔
        ∀ c, lastSectionMark c fillThenCancel = lastSectionMark c cancelAroundFill) ∧
      (∀ t, ((runSections .new fillThenCancel).stats.get t).tally =
        ((runSections .new cancelAroundFill).stats.get t).tally) ∧
      (runSections .new fillThenCancel).stats.keys =
        (runSections .new cancelAroundFill).stats.keys ∧
      (runSections .new fillThenCancel).skipped = (runSections .new cancelAroundFill).skipped :=
  have hsecs : ∀ sec ∈ fillThenCancel, sec.Respects fun _ => exampleAccount := by
    intro sec h
    simp only [fillThenCancel, ServiceCall.sections, List.cons_append, List.nil_append,
      List.mem_cons, List.not_mem_nil, or_false] at h
    rcases h with rfl | rfl | rfl <;> trivial
  have hperm : fillThenCancel.Perm cancelAroundFill := .swap _ _ _
  ⟨hsecs, hperm, interleavings_agree_iff hsecs hperm⟩

end Statistic
end Mmb
