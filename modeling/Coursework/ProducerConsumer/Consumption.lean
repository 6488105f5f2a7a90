import Coursework.ProducerConsumer.Deadlock

/-!
# What is printed when all threads have ended

Each consumer has printed its share of the items. The remainder of the integer division
is produced and never printed, so all items are printed exactly if the consumers can
share them equally.
-/

namespace Coursework.ProducerConsumer

open Concurrency

variable {args : Arguments} {s : PoolState args.Thread Semaphore Shared}

/-- There are `total` items. -/
theorem Arguments.length_allItems (args : Arguments) : args.allItems.length = args.total := by
  simp [Arguments.allItems]

/-- Once all threads have ended the consumers have printed their shares. -/
theorem length_consumed (hfits : args.Fits) (h : args.program.Reachable s)
    (hexited : s.AllExited) : s.shared.consumed.length = args.consumers * args.share := by
  have hentries : ∀ i, s.entries (.inr i) = (s.workers (.inr i)).counter := by
    intro i
    simp only [PoolState.entries, Worker.entries, hexited (.inr i)]
  have hprinted := (accounted_of_reachable h).printed
  simp only [hentries] at hprinted
  rw [consumed_of_exited hfits h fun i => hexited (.inr i)] at hprinted
  simpa [Shared.consumed] using hprinted

/-- The shares make up the total exactly if the consumers divide it. -/
theorem Arguments.share_eq_total_iff (args : Arguments) :
    args.consumers * args.share = args.total ↔ args.consumers ∣ args.total := by
  have hshare := args.share_add_mod
  rw [Nat.dvd_iff_mod_eq_zero]
  omega

/-- Once all threads have ended, every consumer has printed its share, no value is printed twice and
every value is one of the items. All items are printed if and only if the consumers divide the
total. -/
theorem consumed_of_allExited (hfits : args.Fits) (h : args.program.Reachable s)
    (hexited : s.AllExited) :
    s.shared.consumed.Nodup ∧ (∀ item ∈ s.shared.consumed, item ∈ args.allItems) ∧
      s.shared.consumed.length = args.consumers * args.share ∧
      (s.shared.consumed.Perm args.allItems ↔ args.consumers ∣ args.total) := by
  have hsubperm := consumed_subperm h
  have hlength := length_consumed hfits h hexited
  refine ⟨nodup_consumed hfits h, fun item hitem => hsubperm.subset hitem, hlength, ?_⟩
  rw [← args.share_eq_total_iff, ← hlength, ← args.length_allItems]
  constructor
  · intro hperm
    exact hperm.length_eq
  · intro heq
    exact hsubperm.perm_of_length_le heq.ge

/-- The consumer of two producers prints the second producer's items first, and all four items. -/
theorem consumed_of_allExited_twoProducers :
    ∃ s, twoProducers.program.Reachable s ∧ s.AllExited ∧ s.shared.consumed = [2, 3, 0, 1] ∧
      s.shared.consumed.Perm twoProducers.allItems := by
  let first : Actor twoProducers.Thread := .worker (.inl (0 : Fin 2))
  let second : Actor twoProducers.Thread := .worker (.inl (1 : Fin 2))
  let taker : Actor twoProducers.Thread := .worker (.inr (0 : Fin 1))
  have hrun : (twoProducers.program.run (List.replicate 3 .main ++ List.replicate 10 second ++
      List.replicate 10 first ++ List.replicate 20 taker)
      twoProducers.program.initial).map (fun s => (decide s.AllExited, s.shared.consumed)) =
      some (true, [2, 3, 0, 1]) := by decide
  obtain ⟨s, hs, hfacts⟩ := Option.map_eq_some_iff.mp hrun
  obtain ⟨hexited, hconsumed⟩ := Prod.ext_iff.mp hfacts
  have hreachable : twoProducers.program.Reachable s := Pool.Reachable.run _ .refl hs
  obtain ⟨_, _, _, hperm⟩ :=
    consumed_of_allExited (by decide) hreachable (of_decide_eq_true hexited)
  exact ⟨s, hreachable, of_decide_eq_true hexited, hconsumed, hperm.mpr (by decide)⟩

/-- Two consumers of a single item end without printing it. -/
theorem not_perm_allItems_oneItem :
    oneItem.Fits ∧ ∃ s, oneItem.program.Reachable s ∧ s.AllExited ∧ s.shared.produced = [0] ∧
      s.shared.consumed = [] ∧ ¬s.shared.consumed.Perm oneItem.allItems := by
  let only : Actor oneItem.Thread := .worker (.inl (0 : Fin 1))
  have hrun : (oneItem.program.run (List.replicate 3 .main ++ List.replicate 5 only)
      oneItem.program.initial).map
        (fun s => (decide s.AllExited, s.shared.produced, s.shared.consumed)) =
      some (true, [0], []) := by decide
  obtain ⟨s, hs, hfacts⟩ := Option.map_eq_some_iff.mp hrun
  obtain ⟨hexited, hrest⟩ := Prod.ext_iff.mp hfacts
  obtain ⟨hproduced, hconsumed⟩ := Prod.ext_iff.mp hrest
  refine ⟨by decide, s, Pool.Reachable.run _ .refl hs, of_decide_eq_true hexited, hproduced,
    hconsumed, ?_⟩
  intro hperm
  have hlength := hperm.length_eq
  rw [show s.shared.consumed = [] from hconsumed] at hlength
  exact absurd hlength (by decide)

end Coursework.ProducerConsumer
