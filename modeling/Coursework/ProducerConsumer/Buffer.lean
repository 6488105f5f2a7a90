import Coursework.ProducerConsumer.Items

/-!
# The bounded buffer under every interleaving

The values taken out of the buffer are the first values put into it, in the same order,
and at most `bufferSize` of those put in are left. No producer writes to a slot that is
still unread, no consumer reads a slot that is not written, and no value is taken twice.
-/

namespace Coursework.ProducerConsumer

open Concurrency Transition

variable {args : Arguments}

/-- A sum over the threads that wait for a free slot. -/
theorem sum_waitsOn_empty (f : args.Thread → ℕ) :
    ∑ i with args.program.waitsOn i = .empty, f i = ∑ i, f (.inl i) := by
  rw [Finset.sum_filter, Fintype.sum_sum_type]
  simp [Arguments.program]

/-- A sum over the threads that wait for an item. -/
theorem sum_waitsOn_full (f : args.Thread → ℕ) :
    ∑ i with args.program.waitsOn i = .full, f i = ∑ i, f (.inr i) := by
  rw [Finset.sum_filter, Fintype.sum_sum_type]
  simp [Arguments.program]

/-- A sum over the threads that post a free slot. -/
theorem sum_postsTo_empty (f : args.Thread → ℕ) :
    ∑ i with args.program.postsTo i = .empty, f i = ∑ i, f (.inr i) := by
  rw [Finset.sum_filter, Fintype.sum_sum_type]
  simp [Arguments.program]

/-- A sum over the threads that post an item. -/
theorem sum_postsTo_full (f : args.Thread → ℕ) :
    ∑ i with args.program.postsTo i = .full, f i = ∑ i, f (.inl i) := by
  rw [Finset.sum_filter, Fintype.sum_sum_type]
  simp [Arguments.program]

/-- The globals account for the critical sections completed by each thread. -/
structure Accounted (args : Arguments) (entries : args.Thread → ℕ) (shared : Shared) : Prop where
  ring : shared.ring.Shows shared.written shared.printed.length
  written : shared.written.length = ∑ i, entries (.inl i)
  printed : shared.printed.length = ∑ i, entries (.inr i)
  consumed : shared.consumed = shared.produced.take shared.printed.length
  produced : (shared.produced : Multiset Int32) = args.itemsOf (entries ∘ .inl)

/-- At the start nothing is written or printed. -/
theorem accounted_initial (args : Arguments) :
    Accounted args (fun _ => 0) args.program.shared where
  ring := .initial _ rfl rfl
  written := by simp [Arguments.program]
  printed := by simp [Arguments.program]
  consumed := rfl
  produced := by simp [Arguments.program, Arguments.itemsOf, Shared.produced]

/-- One more critical section of one thread is one more in total. -/
theorem sum_entries_update {n : ℕ} (entries : Fin n → ℕ) (i : Fin n) :
    ∑ j, Function.update entries i (entries i + 1) j = (∑ j, entries j) + 1 := by
  have hsum := sum_update_succ Finset.univ id entries i (entries i + 1) rfl
  simpa using hsum

/-- A producer with a free slot keeps the account. -/
theorem Accounted.producer {entries : args.Thread → ℕ} {shared : Shared}
    (h : Accounted args entries shared)
    (hfree : shared.written.length < shared.printed.length + bufferSize)
    (i : Fin args.producers) :
    Accounted args (Function.update entries (.inl i) (entries (.inl i) + 1))
      (producer (args.producerSection i) (entries (.inl i)) shared) where
  ring := h.ring.write hfree _
  written := by
    have hsum := sum_entries_update (entries ∘ Sum.inl) i
    rw [← Sum.update_inl_comp_inl] at hsum
    simp only [ProducerConsumer.producer, List.length_append, List.length_singleton, h.written]
    exact hsum.symm
  printed := by
    simpa [ProducerConsumer.producer] using h.printed
  consumed := by
    have hle : shared.printed.length ≤ shared.produced.length := by
      simpa [Shared.produced] using h.ring.reads_le
    rw [produced_producer]
    exact h.consumed.trans (List.take_append_of_le_length hle).symm
  produced := by
    rw [Sum.update_inl_comp_inl, produced_producer, ← Multiset.coe_add, h.produced]
    exact (args.itemsOf_update (entries ∘ .inl) i).symm

/-- A consumer with an unread slot keeps the account. -/
theorem Accounted.consumer {entries : args.Thread → ℕ} {shared : Shared}
    (h : Accounted args entries shared)
    (hunread : shared.printed.length < shared.written.length) (i : Fin args.consumers) :
    Accounted args (Function.update entries (.inr i) (entries (.inr i) + 1))
      (consumer (args.consumerSection i) shared) where
  ring := by
    have hring := h.ring.advance hunread
    simpa [ProducerConsumer.consumer] using hring
  written := by
    simpa [ProducerConsumer.consumer] using h.written
  printed := by
    have hsum := sum_entries_update (entries ∘ Sum.inr) i
    rw [← Sum.update_inr_comp_inr] at hsum
    simp only [ProducerConsumer.consumer, List.length_append, List.length_singleton, h.printed]
    exact hsum.symm
  consumed := by
    have hread : shared.produced[shared.printed.length]? = some shared.ring.read := by
      simp [Shared.produced, h.ring.read_eq hunread]
    have hlength : (ProducerConsumer.consumer (args.consumerSection i) shared).printed.length =
        shared.printed.length + 1 := by
      simp [ProducerConsumer.consumer]
    rw [consumed_consumer, hlength, h.consumed]
    change _ = shared.produced.take (shared.printed.length + 1)
    rw [List.take_add_one, hread, Option.toList_some]
  produced := by
    rw [Sum.update_inr_comp_inl]
    exact h.produced

variable {s : PoolState args.Thread Semaphore Shared}

/-- A producer at its critical section has a free slot. -/
theorem Accounted.free (h : Accounted args s.entries s.shared) (hs : args.program.Consistent s)
    (i : Fin args.producers) (hpoint : (s.workers (.inl i)).point = .critical) :
    s.shared.written.length < s.shared.printed.length + bufferSize := by
  have hlt := hs.sum_entries_lt (.inl i) hpoint
  change ∑ j with args.program.waitsOn j = .empty, s.entries j <
    bufferSize + ∑ j with args.program.postsTo j = .empty, s.entries j at hlt
  rw [sum_waitsOn_empty, sum_postsTo_empty, ← h.written, ← h.printed] at hlt
  omega

/-- A consumer at its critical section has an unread slot. -/
theorem Accounted.unread (h : Accounted args s.entries s.shared) (hs : args.program.Consistent s)
    (i : Fin args.consumers) (hpoint : (s.workers (.inr i)).point = .critical) :
    s.shared.printed.length < s.shared.written.length := by
  have hlt := hs.sum_entries_lt (.inr i) hpoint
  change ∑ j with args.program.waitsOn j = .full, s.entries j <
    0 + ∑ j with args.program.postsTo j = .full, s.entries j at hlt
  rw [sum_waitsOn_full, sum_postsTo_full, ← h.written, ← h.printed] at hlt
  omega

/-- The globals of every reachable state account for the completed critical sections. -/
theorem accounted_of_reachable (h : args.program.Reachable s) :
    Accounted args s.entries s.shared := by
  refine h.shared_invariant (Accounted args) (accounted_initial args) ?_
  intro s i hs hpoint haccounted
  have hentry : (s.workers i).counter = s.entries i := by
    simp [PoolState.entries, Worker.entries, hpoint]
  rw [hentry]
  cases i with
  | inl i => exact haccounted.producer (haccounted.free hs i hpoint) i
  | inr i => exact haccounted.consumer (haccounted.unread hs i hpoint) i

/-- A worker completes at most one critical section in each of its rounds. -/
theorem entries_le_rounds (h : args.program.Reachable s) (i : args.Thread) :
    s.entries i ≤ args.program.rounds i := by
  have hvalid := h.consistent.valid i
  unfold Worker.Valid at hvalid
  unfold PoolState.entries Worker.entries
  cases hpoint : (s.workers i).point <;> simp_all <;> omega

/-- The consumed values are the first values produced. -/
theorem consumed_prefix_produced (h : args.program.Reachable s) :
    s.shared.consumed <+: s.shared.produced := by
  rw [(accounted_of_reachable h).consumed]
  exact List.take_prefix _ _

/-- The consumed values are some of the items, each at most once. -/
theorem consumed_subperm (h : args.program.Reachable s) :
    s.shared.consumed.Subperm args.allItems := by
  have hproduced : (s.shared.produced : Multiset Int32) ≤ args.allItems := by
    rw [(accounted_of_reachable h).produced]
    exact args.itemsOf_le _ fun i => entries_le_rounds h (.inl i)
  exact (consumed_prefix_produced h).sublist.subperm.trans (Multiset.coe_le.mp hproduced)

/-- The consumed values are distinct. -/
theorem nodup_consumed (hfits : args.Fits) (h : args.program.Reachable s) :
    s.shared.consumed.Nodup := by
  have hle := Multiset.coe_le.mpr (consumed_subperm h)
  exact Multiset.coe_nodup.mp
    (Multiset.nodup_of_le hle (Multiset.coe_nodup.mpr (args.nodup_allItems hfits)))

/-- In every reachable state the values consumed are the first values produced, at most `bufferSize`
further ones are unread, a producer is about to write to no unread slot, a consumer is about to read
the first unread write, and no value is consumed twice. -/
theorem bounded_buffer (hfits : args.Fits) (h : args.program.Reachable s) :
    s.shared.consumed <+: s.shared.produced ∧
      s.shared.produced.length ≤ s.shared.consumed.length + bufferSize ∧
      (∀ i, (s.workers (.inl i)).point = .critical →
        ∀ entry ∈ s.shared.written.drop s.shared.printed.length,
          entry.1 ≠ s.shared.ring.inIndex) ∧
      (∀ i, (s.workers (.inr i)).point = .critical →
        s.shared.written[s.shared.printed.length]? =
          some (s.shared.ring.outIndex, s.shared.ring.read)) ∧
      s.shared.consumed.Nodup := by
  have haccounted := accounted_of_reachable h
  refine ⟨consumed_prefix_produced h, ?_, ?_, ?_, nodup_consumed hfits h⟩
  · simpa [Shared.consumed, Shared.produced] using haccounted.ring.le_reads
  · intro i hpoint entry hentry
    obtain ⟨k, hk⟩ := List.mem_iff_getElem?.mp hentry
    rw [List.getElem?_drop] at hk
    exact haccounted.ring.inIndex_ne (haccounted.free h.consistent i hpoint) _ entry
      (Nat.le_add_right _ k) hk
  · intro i hpoint
    exact haccounted.ring.read_eq (haccounted.unread h.consistent i hpoint)

/-- After the second producer has handed its first item to the consumer and the first producer has
written an item, the consumer is about to read that item. -/
theorem bounded_buffer_twoProducers :
    ∃ s, twoProducers.program.Reachable s ∧
      s.shared.produced = [2, 0] ∧ s.shared.printed = [(0, 2)] ∧
      (s.workers (.inr (0 : Fin 1))).point = .critical ∧
      s.shared.consumed <+: s.shared.produced ∧
      s.shared.written[s.shared.printed.length]? =
        some (s.shared.ring.outIndex, s.shared.ring.read) ∧ s.shared.consumed.Nodup := by
  let first : Actor twoProducers.Thread := .worker (.inl (0 : Fin 2))
  let second : Actor twoProducers.Thread := .worker (.inl (1 : Fin 2))
  let taker : Actor twoProducers.Thread := .worker (.inr (0 : Fin 1))
  have hrun : (twoProducers.program.run (List.replicate 3 .main ++ List.replicate 5 second ++
      List.replicate 5 taker ++ List.replicate 5 first ++ List.replicate 2 taker)
      twoProducers.program.initial).map (fun s => (s.shared.produced, s.shared.printed,
        (s.workers (.inr (0 : Fin 1))).point)) =
      some ([2, 0], [(0, 2)], .critical) := by decide
  obtain ⟨s, hs, hfacts⟩ := Option.map_eq_some_iff.mp hrun
  obtain ⟨hproduced, hrest⟩ := Prod.ext_iff.mp hfacts
  obtain ⟨hprinted, hpoint⟩ := Prod.ext_iff.mp hrest
  have hreachable : twoProducers.program.Reachable s := Pool.Reachable.run _ .refl hs
  obtain ⟨hfirst, _, _, hread, hnodup⟩ := bounded_buffer (by decide) hreachable
  exact ⟨s, hreachable, hproduced, hprinted, hpoint, hfirst, hread _ hpoint, hnodup⟩

end Coursework.ProducerConsumer
