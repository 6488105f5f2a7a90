import Coursework.Concurrency.PoolProgress
import Coursework.ProducerConsumer.Buffer

/-!
# When the program deadlocks

The consumers leave the remainder of the integer division in the buffer. The producers
can finish if that many items fit the buffer, and they get stuck on every run if not.
-/

namespace Coursework.ProducerConsumer

open Concurrency

variable {args : Arguments} {s : PoolState args.Thread Semaphore Shared}

/-- In a stuck state the free slots and the items of the producers balance those of the consumers. -/
theorem empty_of_stuck (h : args.program.Reachable s) (hstuck : args.program.Stuck s) :
    s.semaphores .empty + ∑ i, (s.workers (.inl i)).counter =
      bufferSize + ∑ i, (s.workers (.inr i)).counter := by
  have hbalance := h.consistent.semaphore .empty
  simp only [h.consistent.waits_of_stuck hstuck] at hbalance
  rw [sum_waitsOn_empty (fun i => (s.workers i).counter),
    sum_postsTo_empty (fun i => (s.workers i).counter)] at hbalance
  exact hbalance

/-- In a stuck state the unread items and the items of the consumers balance those of the
producers. -/
theorem full_of_stuck (h : args.program.Reachable s) (hstuck : args.program.Stuck s) :
    s.semaphores .full + ∑ i, (s.workers (.inr i)).counter =
      ∑ i, (s.workers (.inl i)).counter := by
  have hbalance := h.consistent.semaphore .full
  simp only [h.consistent.waits_of_stuck hstuck] at hbalance
  rw [sum_waitsOn_full (fun i => (s.workers i).counter),
    sum_postsTo_full (fun i => (s.workers i).counter)] at hbalance
  exact hbalance.trans (Nat.zero_add _)

/-- Producers that have all ended have produced the total. -/
theorem produced_of_exited (h : args.program.Reachable s)
    (hexited : ∀ i, (s.workers (.inl i)).point = .exited) :
    ∑ i, (s.workers (.inl i)).counter = args.total := by
  have hsum := h.consistent.sum_counter_of_exited Sum.inl args.items args.rounds_inl hexited
  rwa [Fintype.card_fin] at hsum

/-- Producers of which one waits have not produced the total. -/
theorem produced_lt_of_wait (h : args.program.Reachable s) (i : Fin args.producers)
    (hwait : (s.workers (.inl i)).point = .wait) :
    ∑ i, (s.workers (.inl i)).counter < args.total := by
  have hsum := h.consistent.sum_counter_lt Sum.inl args.items args.rounds_inl i hwait
  rwa [Fintype.card_fin] at hsum

/-- Consumers that have all ended have consumed their shares. -/
theorem consumed_of_exited (hfits : args.Fits) (h : args.program.Reachable s)
    (hexited : ∀ i, (s.workers (.inr i)).point = .exited) :
    ∑ i, (s.workers (.inr i)).counter = args.consumers * args.share := by
  have hsum := h.consistent.sum_counter_of_exited Sum.inr args.share (args.rounds_inr hfits) hexited
  rwa [Fintype.card_fin] at hsum

/-- Consumers of which one waits have not consumed their shares. -/
theorem consumed_lt_of_wait (hfits : args.Fits) (h : args.program.Reachable s)
    (i : Fin args.consumers) (hwait : (s.workers (.inr i)).point = .wait) :
    ∑ i, (s.workers (.inr i)).counter < args.consumers * args.share := by
  have hsum := h.consistent.sum_counter_lt Sum.inr args.share (args.rounds_inr hfits) i hwait
  rwa [Fintype.card_fin] at hsum

/-- The shares and the remainder make up the total. -/
theorem Arguments.share_add_mod (args : Arguments) :
    args.consumers * args.share + args.total % args.consumers = args.total :=
  Nat.div_add_mod _ _

/-- In a stuck state every consumer has ended. -/
theorem consumers_exited_of_stuck (hfits : args.Fits) (h : args.program.Reachable s)
    (hstuck : args.program.Stuck s) (i : Fin args.consumers) :
    (s.workers (.inr i)).point = .exited := by
  cases h.consistent.worker_of_stuck hstuck (.inr i) with
  | inl hexited => exact hexited
  | inr hwait =>
    exfalso
    obtain ⟨hpoint, hfull⟩ := hwait
    change s.semaphores .full = 0 at hfull
    have hlt := consumed_lt_of_wait hfits h i hpoint
    have hbalance := full_of_stuck h hstuck
    have hempty := empty_of_stuck h hstuck
    have hshare := args.share_add_mod
    have hproducers : ∀ i, (s.workers (.inl i)).point = .exited := by
      intro j
      cases h.consistent.worker_of_stuck hstuck (.inl j) with
      | inl hexited => exact hexited
      | inr hwait =>
        have hnone : s.semaphores .empty = 0 := hwait.2
        have hsize : bufferSize = 16 := rfl
        omega
    have hproduced := produced_of_exited h hproducers
    omega

/-- A stuck state in which some thread has not ended leaves more than a buffer of items. -/
theorem remainder_of_stuck (hfits : args.Fits) (h : args.program.Reachable s)
    (hstuck : args.program.Stuck s) (hrunning : ¬s.AllExited) :
    bufferSize < args.total % args.consumers := by
  have hconsumed := consumed_of_exited hfits h (consumers_exited_of_stuck hfits h hstuck)
  have hempty := empty_of_stuck h hstuck
  have hshare := args.share_add_mod
  unfold PoolState.AllExited at hrunning
  push Not at hrunning
  obtain ⟨i, hi⟩ := hrunning
  cases i with
  | inr i => exact absurd (consumers_exited_of_stuck hfits h hstuck i) hi
  | inl i =>
    cases h.consistent.worker_of_stuck hstuck (.inl i) with
    | inl hexited => exact absurd hexited hi
    | inr hwait =>
      have hnone : s.semaphores .empty = 0 := hwait.2
      have hlt := produced_lt_of_wait h i hwait.1
      omega

/-- If all threads have ended, the remainder fits the buffer. -/
theorem remainder_of_allExited (hfits : args.Fits) (h : args.program.Reachable s)
    (hstuck : args.program.Stuck s) (hexited : s.AllExited) :
    args.total % args.consumers ≤ bufferSize := by
  have hproduced := produced_of_exited h fun i => hexited (.inl i)
  have hconsumed := consumed_of_exited hfits h fun i => hexited (.inr i)
  have hempty := empty_of_stuck h hstuck
  have hshare := args.share_add_mod
  omega

/-- Some run reaches a state in which a thread has not ended, no thread has a step, and so the main
thread never returns, if and only if the remainder of the items exceeds the buffer. -/
theorem deadlock_iff (hfits : args.Fits) :
    (∃ s, args.program.Reachable s ∧ args.program.Stuck s ∧
      (∃ i, (s.workers i).point ≠ .exited) ∧ ¬args.program.Returned s) ↔
      bufferSize < args.total % args.consumers := by
  constructor
  · rintro ⟨s, h, hstuck, ⟨i, hi⟩, _⟩
    exact remainder_of_stuck hfits h hstuck fun hexited => hi (hexited i)
  · intro hremainder
    have hinitial : args.program.Reachable args.program.initial := .refl
    obtain ⟨s, hrun, hstuck⟩ := hinitial.exists_stuck
    have hrunning : ¬s.AllExited := by
      intro hexited
      have hle := remainder_of_allExited hfits hrun hstuck hexited
      omega
    refine ⟨s, hrun, hstuck, ?_, ?_⟩
    · unfold PoolState.AllExited at hrunning
      push Not at hrunning
      exact hrunning
    · intro hreturned
      exact hrunning (Pool.Reachable.consistent hrun |>.allExited_of_returned hreturned)

/-- One producer of seventeen items and eighteen consumers get stuck. -/
theorem deadlock_seventeenItems :
    ∃ s, seventeenItems.program.Reachable s ∧ seventeenItems.program.Stuck s ∧
      (∃ i, (s.workers i).point ≠ .exited) ∧ ¬seventeenItems.program.Returned s :=
  (deadlock_iff (by decide)).mpr (by decide)

end Coursework.ProducerConsumer
