import Coursework.ProducerConsumer.Deadlock

/-!
# What every schedule comes to

The scheduler decides how the producers are interleaved and which consumer prints what, but
neither the order of the items of one producer, nor how many lines each consumer prints, nor
whether the program ends.
-/

namespace Coursework.ProducerConsumer

open Concurrency

variable {args : Arguments}

/-- The items of one producer, in its order. -/
def Arguments.itemsBy (args : Arguments) (i : Fin args.producers) : List Int32 :=
  (List.range args.items).map (args.producerSection i).nextProduced

/-- The lines that one consumer has printed. -/
def Shared.printedBy (shared : Shared) (param : ConsumerSection) : List (Int32 × Int32) :=
  shared.printed.filter fun line => line.1 = param.threadIndex

/-- The steps of a run in which all threads end. -/
def Arguments.steps (args : Arguments) : ℕ :=
  5 * (args.total + args.consumers * args.share) + 2 * (args.producers + args.consumers)

/-- Numbers that fit an `int` are told apart. -/
theorem ofNat_inj {a b : ℕ} (ha : a < 2 ^ 31) (hb : b < 2 ^ 31)
    (heq : Int32.ofNat a = Int32.ofNat b) : a = b := by
  rw [← Int32.toNatClampNeg_ofNat_of_lt ha, heq, Int32.toNatClampNeg_ofNat_of_lt hb]

/-- A number tells which producer has given it. -/
theorem Arguments.nextProduced_mem_itemsBy (hfits : args.Fits) (i j : Fin args.producers)
    {counter : ℕ} (hcounter : counter < args.items) :
    (args.producerSection j).nextProduced counter ∈ args.itemsBy i ↔ j = i := by
  have hbound : ∀ (k : Fin args.producers) {c : ℕ}, c < args.items →
      k * args.items + c < 2 ^ 31 := by
    intro k c hc
    have hblock : (k + 1) * args.items ≤ args.total := Nat.mul_le_mul_right _ k.isLt
    have hsucc : (k + 1) * args.items = k * args.items + args.items := Nat.succ_mul _ _
    have htotal : args.total < 2 ^ 31 := hfits
    omega
  have hblock : ∀ (k : Fin args.producers) {c : ℕ}, c < args.items →
      (k * args.items + c) / args.items = k := by
    intro k c hc
    rw [Nat.add_comm, Nat.add_mul_div_right _ _ (Nat.zero_lt_of_lt hc), Nat.div_eq_of_lt hc,
      Nat.zero_add]
  constructor
  · intro hmem
    obtain ⟨c, hc, heq⟩ := List.mem_map.mp hmem
    rw [args.nextProduced_eq, args.nextProduced_eq] at heq
    have hc := List.mem_range.mp hc
    have hsame := ofNat_inj (hbound i hc) (hbound j hcounter) heq
    rw [Fin.ext_iff, ← hblock i hc, hsame, hblock j hcounter]
  · rintro rfl
    exact List.mem_map_of_mem (List.mem_range.mpr hcounter)

/-- A line tells which consumer has printed it. -/
theorem Arguments.threadIndex_inj {i j : Fin args.consumers}
    (heq : (args.consumerSection i).threadIndex = (args.consumerSection j).threadIndex) : i = j := by
  have hbound : ∀ k : Fin args.consumers, (k : ℕ) < 2 ^ 31 := fun k =>
    k.isLt.trans (Int32.toNatClampNeg_lt _)
  exact Fin.ext (ofNat_inj (hbound i) (hbound j) heq)

/-- The globals account for the items of each producer, and for the lines of each consumer. -/
structure Shares (args : Arguments) (entries : args.Thread → ℕ) (shared : Shared) : Prop where
  written : ∀ i, shared.produced.filter (· ∈ args.itemsBy i) =
    (args.itemsBy i).take (entries (.inl i))
  printed : ∀ i, (shared.printedBy (args.consumerSection i)).length = entries (.inr i)

section Shares

variable {entries : args.Thread → ℕ} {shared : Shared}

/-- A producer adds its next item to its own. -/
theorem Shares.producer (hfits : args.Fits) (h : Shares args entries shared)
    (i : Fin args.producers) (hrounds : entries (.inl i) < args.items) :
    Shares args (Function.update entries (.inl i) (entries (.inl i) + 1))
      (producer (args.producerSection i) (entries (.inl i)) shared) where
  written := by
    intro j
    rw [produced_producer, List.filter_append, h.written j, List.filter_singleton]
    simp only [args.nextProduced_mem_itemsBy hfits j i hrounds]
    by_cases hsame : i = j
    · subst hsame
      have hnext : (args.itemsBy i)[entries (.inl i)]? =
          some ((args.producerSection i).nextProduced (entries (.inl i))) := by
        rw [Arguments.itemsBy, List.getElem?_map, List.getElem?_range hrounds, Option.map_some]
      rw [Function.update_self, List.take_add_one, hnext]
      simp
    · have hother : Function.update entries (.inl i) (entries (.inl i) + 1) (.inl j) =
          entries (.inl j) :=
        Function.update_of_ne (fun heq => hsame (Sum.inl.inj heq).symm) _ _
      rw [hother]
      simp [hsame]
  printed := by
    intro j
    rw [Function.update_of_ne Sum.inr_ne_inl]
    exact h.printed j

/-- A consumer adds a line to its own. -/
theorem Shares.consumer (h : Shares args entries shared) (i : Fin args.consumers) :
    Shares args (Function.update entries (.inr i) (entries (.inr i) + 1))
      (consumer (args.consumerSection i) shared) where
  written := by
    intro j
    rw [Function.update_of_ne Sum.inl_ne_inr]
    exact h.written j
  printed := by
    intro j
    have hline : ((ProducerConsumer.consumer (args.consumerSection i) shared).printedBy
        (args.consumerSection j)).length = entries (.inr j) + if i = j then 1 else 0 := by
      rw [Shared.printedBy, ProducerConsumer.consumer, List.filter_append, List.length_append,
        ← h.printed j, Shared.printedBy, List.filter_singleton]
      by_cases hsame : i = j
      · simp [hsame]
      · have hother : (args.consumerSection i).threadIndex ≠ (args.consumerSection j).threadIndex :=
          fun heq => hsame (Arguments.threadIndex_inj heq)
        simp [hsame, hother]
    rw [hline, Function.update_apply]
    by_cases hsame : i = j
    · simp [hsame]
    · have hother : ¬(Sum.inr j : args.Thread) = .inr i := fun heq => hsame (Sum.inr.inj heq).symm
      rw [if_neg hsame, if_neg hother, Nat.add_zero]

end Shares

variable {s : PoolState args.Thread Semaphore Shared}

/-- The globals of every reachable state account for each thread. -/
theorem shares_of_reachable (hfits : args.Fits) (h : args.program.Reachable s) :
    Shares args s.entries s.shared := by
  refine h.shared_invariant (Shares args) ⟨fun _ => rfl, fun _ => rfl⟩ ?_
  intro s i hs hpoint hshares
  have hentry : (s.workers i).counter = s.entries i := by
    simp [PoolState.entries, Worker.entries, hpoint]
  have hrounds := hs.counter_lt i (by simp [hpoint]) (by simp [hpoint])
  rw [hentry] at hrounds ⊢
  cases i with
  | inl i => exact hshares.producer hfits i hrounds
  | inr i => exact hshares.consumer i

/-- In every reachable state each producer has written its first items, in their order, and those of
them that have been printed were printed in that order, the first ones first. -/
theorem printed_inOrder (hfits : args.Fits) (h : args.program.Reachable s)
    (i : Fin args.producers) :
    s.shared.produced.filter (· ∈ args.itemsBy i) = (args.itemsBy i).take (s.entries (.inl i)) ∧
      s.shared.consumed.filter (· ∈ args.itemsBy i) <+: args.itemsBy i := by
  have hwritten := (shares_of_reachable hfits h).written i
  refine ⟨hwritten, ((consumed_prefix_produced h).filter _).trans ?_⟩
  rw [hwritten]
  exact List.take_prefix _ _

/-- The items of the second producer are printed in its order, before those of the first. -/
theorem printed_inOrder_twoProducers :
    ∃ s, twoProducers.program.Reachable s ∧ s.shared.consumed = [2, 3, 0] ∧
      s.shared.produced.filter (· ∈ twoProducers.itemsBy (0 : Fin 2)) = [0, 1] ∧
      s.shared.consumed.filter (· ∈ twoProducers.itemsBy (1 : Fin 2)) <+: [2, 3] := by
  let first : Actor twoProducers.Thread := .worker (.inl (0 : Fin 2))
  let second : Actor twoProducers.Thread := .worker (.inl (1 : Fin 2))
  let taker : Actor twoProducers.Thread := .worker (.inr (0 : Fin 1))
  have hrun : (twoProducers.program.run (List.replicate 3 .main ++ List.replicate 10 second ++
      List.replicate 10 first ++ List.replicate 15 taker)
      twoProducers.program.initial).map (fun s => (s.shared.consumed, s.entries (.inl (0 : Fin 2)))) =
      some ([2, 3, 0], 2) := by decide
  obtain ⟨s, hs, hfacts⟩ := Option.map_eq_some_iff.mp hrun
  obtain ⟨hconsumed, hentries⟩ := Prod.ext_iff.mp hfacts
  have hreachable : twoProducers.program.Reachable s := Pool.Reachable.run _ .refl hs
  have hfirst := (printed_inOrder (by decide) hreachable (0 : Fin 2)).1
  have hsecond := (printed_inOrder (by decide) hreachable (1 : Fin 2)).2
  change s.entries (.inl (0 : Fin 2)) = 2 at hentries
  rw [hentries] at hfirst
  exact ⟨s, hreachable, hconsumed, hfirst, hsecond⟩

/-- A thread that has ended has run its critical section once in each round. -/
theorem entries_of_exited (h : args.program.Reachable s) {i : args.Thread}
    (hexited : (s.workers i).point = .exited) : s.entries i = args.program.rounds i := by
  have hvalid := h.consistent.valid i
  rw [Worker.Valid, hexited] at hvalid
  rw [PoolState.entries, Worker.entries, hexited]
  exact hvalid

/-- The steps that are left at the start. -/
theorem remaining_initial (hfits : args.Fits) :
    args.program.remaining args.program.initial = args.steps := by
  have horder : args.program.order.length = args.producers + args.consumers := by
    change ((List.finRange _).map Sum.inl ++ (List.finRange _).map Sum.inr).length = _
    rw [List.length_append, List.length_map, List.length_map, List.length_finRange,
      List.length_finRange]
  have hrounds : ∑ i, args.program.rounds i = args.total + args.consumers * args.share := by
    rw [Fintype.sum_sum_type]
    simp only [args.rounds_inl, args.rounds_inr hfits, Finset.sum_const, Finset.card_univ,
      Fintype.card_fin, smul_eq_mul]
    rfl
  change (∑ i, 5 * args.program.rounds i) + 2 * args.program.order.length = _
  rw [← Finset.mul_sum, hrounds, horder]
  rfl

/-- In a stuck state the producers have filled the buffer, or written all their items. -/
theorem produced_of_stuck (hfits : args.Fits) (h : args.program.Reachable s)
    (hstuck : args.program.Stuck s) :
    s.shared.produced.length =
      args.consumers * args.share + min bufferSize (args.total % args.consumers) := by
  have hentries : ∀ i, s.entries i = (s.workers i).counter := by
    intro i
    rw [PoolState.entries, Worker.entries]
    cases h.consistent.worker_of_stuck hstuck i with
    | inl hexited => rw [hexited]
    | inr hwait => rw [hwait.1]
  have hlength : s.shared.produced.length = ∑ i, (s.workers (.inl i)).counter := by
    rw [Shared.produced, List.length_map, (accounted_of_reachable h).written]
    exact Finset.sum_congr rfl fun i _ => hentries (.inl i)
  have hconsumed := consumed_of_exited hfits h (consumers_exited_of_stuck hfits h hstuck)
  have hempty := empty_of_stuck h hstuck
  have hshare := args.share_add_mod
  rw [hlength]
  by_cases hexited : ∀ i, (s.workers (.inl i)).point = .exited
  · have hproduced := produced_of_exited h hexited
    omega
  · push Not at hexited
    obtain ⟨i, hi⟩ := hexited
    obtain ⟨hwait, hnone⟩ := (h.consistent.worker_of_stuck hstuck (.inl i)).resolve_left hi
    change s.semaphores .empty = 0 at hnone
    have hlt := produced_lt_of_wait h i hwait
    omega

/-- No schedule is longer than `steps`, and the main thread returns with exactly the last of them.
Once no thread has a step, whatever the schedule, each consumer has printed its share, the producers
have written as much of the remainder as the buffer holds, and the main thread has returned if and
only if the buffer holds it all. -/
theorem run_outcome (hfits : args.Fits) (schedule : List (Actor args.Thread))
    (hrun : args.program.run schedule args.program.initial = some s) :
    schedule.length ≤ args.steps ∧
      (args.program.Returned s ↔ schedule.length = args.steps) ∧
      (args.program.Stuck s →
        (∀ i, (s.shared.printedBy (args.consumerSection i)).length = args.share) ∧
        s.shared.produced.length =
          args.consumers * args.share + min bufferSize (args.total % args.consumers) ∧
        (args.program.Returned s ↔ args.total % args.consumers ≤ bufferSize)) := by
  have hinitial : args.program.Reachable args.program.initial := .refl
  have h : args.program.Reachable s := hinitial.run schedule hrun
  have hsteps := hinitial.length_add_remaining schedule hrun
  rw [remaining_initial hfits] at hsteps
  refine ⟨by omega, ?_, fun hstuck => ⟨fun i => ?_, produced_of_stuck hfits h hstuck, ?_, ?_⟩⟩
  · rw [h.returned_iff]
    omega
  · rw [(shares_of_reachable hfits h).printed i,
      entries_of_exited h (consumers_exited_of_stuck hfits h hstuck i), args.rounds_inr hfits]
  · intro hreturned
    exact remainder_of_allExited hfits h hstuck (h.consistent.allExited_of_returned hreturned)
  · intro hholds
    refine h.returned_of_stuck hstuck (by_contra fun hrunning => ?_)
    have hmore := remainder_of_stuck hfits h hstuck hrunning
    omega

/-- The schedule in which the second of two producers goes first and the consumer last takes all the
steps. -/
theorem run_outcome_twoProducers :
    ∃ schedule s, twoProducers.program.run schedule twoProducers.program.initial = some s ∧
      schedule.length = 46 ∧ twoProducers.program.Returned s ∧
      (s.shared.printedBy (twoProducers.consumerSection (0 : Fin 1))).length = 4 ∧
      s.shared.produced.length = 4 := by
  let first : Actor twoProducers.Thread := .worker (.inl (0 : Fin 2))
  let second : Actor twoProducers.Thread := .worker (.inl (1 : Fin 2))
  let taker : Actor twoProducers.Thread := .worker (.inr (0 : Fin 1))
  let schedule := List.replicate 3 .main ++ List.replicate 10 second ++
    List.replicate 10 first ++ List.replicate 20 taker ++ List.replicate 3 .main
  have hsome : (twoProducers.program.run schedule twoProducers.program.initial).isSome = true := by
    decide
  obtain ⟨s, hrun⟩ := Option.isSome_iff_exists.mp hsome
  obtain ⟨-, hlast, hstuck⟩ := run_outcome (by decide) schedule hrun
  have hreachable : twoProducers.program.Reachable s := Pool.Reachable.run _ .refl hrun
  have hreturned := hlast.mpr (by decide)
  have hnone := hreachable.returned_iff.mp hreturned
  obtain ⟨hprinted, hproduced, -⟩ := hstuck (hreachable.consistent.stuck_of_remaining hnone)
  exact ⟨schedule, s, hrun, by decide, hreturned, (hprinted (0 : Fin 1)).trans (by decide),
    hproduced.trans (by decide)⟩

end Coursework.ProducerConsumer
