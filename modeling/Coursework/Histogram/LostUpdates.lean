import Coursework.Concurrency.LostUpdates
import Coursework.Histogram.Indices

/-!
# The counts that are lost without a mutex

Seen at one character, the program without a mutex is a race of its threads on the counter
of that character, in which each thread increments as often as its section holds the
character. The steps at all other characters do nothing there.
-/

namespace Coursework.Histogram.ASCIICount2

open Concurrency

/-- What a step of `runner` can do, with the condition under which it is possible. -/
inductive RunnerMoves (file : List UInt8) (k : Fin 8) (count : Fin 128 → ℤ) :
    Runner → Runner → (Fin 128 → ℤ) → Prop where
  | load (i : ℤ) (selected : Fin 128) (hselected : counterAt file i = some selected) :
      RunnerMoves file k count (.load i) (.store i (count selected)) count
  | store (i value : ℤ) (selected : Fin 128) (hselected : counterAt file i = some selected) :
      RunnerMoves file k count (.store i value) (loopTest (sectionEnd (size file) k) (i + 1))
        (Function.update count selected (value + 1))

/-- A step of `runner` is one of these moves. -/
theorem runnerMoves_iff {file : List UInt8} {k : Fin 8} {t t' : Runner}
    {count count' : Fin 128 → ℤ} :
    runner file k t count = some (t', count') ↔ RunnerMoves file k count t t' count' := by
  constructor
  · intro hstep
    cases t with
    | load i =>
      cases hc : counterAt file i with
      | none => simp [runner, hc] at hstep
      | some selected =>
        simp only [runner, hc, Option.some.injEq, Prod.mk.injEq] at hstep
        obtain ⟨rfl, rfl⟩ := hstep
        exact .load i selected hc
    | store i value =>
      cases hc : counterAt file i with
      | none => simp [runner, hc] at hstep
      | some selected =>
        simp only [runner, hc, Option.some.injEq, Prod.mk.injEq] at hstep
        obtain ⟨rfl, rfl⟩ := hstep
        exact .store i value selected hc
    | exited => cases hstep
  · intro hmoves
    cases hmoves with
    | load i selected hselected => simp only [runner, hselected]
    | store i value selected hselected => simp only [runner, hselected]

/-- The steps that a thread has left. -/
def Runner.left (last : ℤ) : Runner → ℕ
  | .load i => 2 * (last + 1 - i).toNat + 2
  | .store i _ => 2 * (last + 1 - i).toNat + 1
  | .exited => 0

/-- Every step uses up one. -/
theorem left_lt {file : List UInt8} {k : Fin 8} {t t' : Runner} {count count' : Fin 128 → ℤ}
    (hmoves : RunnerMoves file k count t t' count') :
    t'.left (sectionEnd (size file) k) < t.left (sectionEnd (size file) k) := by
  cases hmoves with
  | load i selected hselected => exact Nat.lt_succ_self _
  | store i value selected hselected =>
    rw [loopTest]
    split
    · simp only [Runner.left]
      omega
    · exact Nat.succ_pos _

/-- In a file whose bytes are below 128 every position of a section selects a counter. -/
theorem exists_selected {file : List UInt8} (hfits : Fits file)
    (hascii : ∀ b ∈ file, b.toNat < 128) {k : Fin 8} {i : ℤ}
    (hi : sectionStart (size file) k ≤ i ∧ i ≤ sectionEnd (size file) k) :
    ∃ selected, counterAt file i = some selected := by
  obtain ⟨hstart, -, hend⟩ := section_bounds file k
  exact exists_counterAt file hfits hascii i (hstart.trans hi.1) (hi.2.trans hend)

/-- In such a file every thread that has not exited can step. -/
theorem exists_moves {file : List UInt8} (hfits : Fits file) (hascii : ∀ b ∈ file, b.toNat < 128)
    {k : Fin 8} {t : Runner} (ht : t.InSection file k) (hexited : t.hasExited = false)
    (count : Fin 128 → ℤ) : ∃ t' count', RunnerMoves file k count t t' count' := by
  cases t with
  | load i =>
    obtain ⟨selected, hselected⟩ := exists_selected hfits hascii ht
    exact ⟨_, _, .load i selected hselected⟩
  | store i value =>
    obtain ⟨selected, hselected⟩ := exists_selected hfits hascii ht
    exact ⟨_, _, .store i value selected hselected⟩
  | exited => cases hexited

/-- The first position that a thread has not counted yet. -/
def next (file : List UInt8) (k : Fin 8) : Option Runner → ℤ
  | none => sectionStart (size file) k
  | some (.load i) => i
  | some (.store i _) => i
  | some .exited => sectionEnd (size file) k + 1

/-- The value that a thread has read from a counter and not written back. -/
def pending (file : List UInt8) (c : Fin 128) : Option Runner → Option ℤ
  | none => none
  | some (.load _) => none
  | some (.store i value) => if counterAt file i = some c then some value else none
  | some .exited => none

/-- How often a section holds a character. -/
def sectionCount (file : List UInt8) (c : Fin 128) (k : Fin 8) : ℕ :=
  counted file (sectionStart (size file) k) (sectionEnd (size file) k + 1) c

/-- At one character, threads and counters are a state of the race. -/
structure Shows (file : List UInt8) (c : Fin 128) (threads : Fin 8 → Option Runner)
    (count : Fin 128 → ℤ) (race : RaceState (Fin 8)) : Prop where
  inSection : ∀ k t, threads k = some t → t.InSection file k
  done : ∀ k, race.done k = counted file (sectionStart (size file) k) (next file k (threads k)) c
  held : ∀ k, (race.held k).map Nat.cast = pending file c (threads k)
  value : count c = race.value

/-- The loop test goes on at the position it is given, or after the section. -/
theorem next_loopTest (file : List UInt8) (k : Fin 8) (i : ℤ)
    (hi : i ≤ sectionEnd (size file) k + 1) :
    next file k (some (loopTest (sectionEnd (size file) k) i)) = i := by
  rw [loopTest]
  split
  · rfl
  · rw [next]
    omega

/-- The loop test holds no value. -/
theorem pending_loopTest (file : List UInt8) (c : Fin 128) (last i : ℤ) :
    pending file c (some (loopTest last i)) = none := by
  rw [loopTest]
  split <;> rfl

/-- A change of one thread and of the counters shows what the race changes there. -/
theorem Shows.move {file : List UInt8} {c : Fin 128} {threads : Fin 8 → Option Runner}
    {count count' : Fin 128 → ℤ} {race : RaceState (Fin 8)} (h : Shows file c threads count race)
    (k : Fin 8) (t : Runner) (race' : RaceState (Fin 8)) (hin : t.InSection file k)
    (hdone : race'.done = Function.update race.done k
      (counted file (sectionStart (size file) k) (next file k (some t)) c))
    (hother : ∀ j, j ≠ k → race'.held j = race.held j)
    (hheld : (race'.held k).map Nat.cast = pending file c (some t))
    (hvalue : count' c = race'.value) :
    Shows file c (Function.update threads k (some t)) count' race' := by
  refine ⟨?_, ?_, ?_, hvalue⟩
  · intro j t' hj
    by_cases hjk : j = k
    · subst hjk
      rw [Function.update_self] at hj
      exact Option.some.inj hj ▸ hin
    · rw [Function.update_of_ne hjk] at hj
      exact h.inSection j t' hj
  · intro j
    rw [hdone]
    by_cases hjk : j = k
    · subst hjk
      rw [Function.update_self, Function.update_self]
    · rw [Function.update_of_ne hjk, Function.update_of_ne hjk]
      exact h.done j
  · intro j
    by_cases hjk : j = k
    · subst hjk
      rw [Function.update_self]
      exact hheld
    · rw [Function.update_of_ne hjk, hother j hjk]
      exact h.held j

/-- A change that counts nothing and holds nothing shows the same state of the race. -/
theorem Shows.stutter {file : List UInt8} {c : Fin 128} {threads : Fin 8 → Option Runner}
    {count count' : Fin 128 → ℤ} {race : RaceState (Fin 8)} (h : Shows file c threads count race)
    (k : Fin 8) (t : Runner) (hin : t.InSection file k)
    (hnext : counted file (sectionStart (size file) k) (next file k (some t)) c =
      counted file (sectionStart (size file) k) (next file k (threads k)) c)
    (hbefore : pending file c (threads k) = none) (hafter : pending file c (some t) = none)
    (hcount : count' c = count c) :
    Shows file c (Function.update threads k (some t)) count' race := by
  apply h.move k t race hin
  · rw [hnext, ← h.done k, Function.update_eq_self]
  · intro j _
    rfl
  · rw [h.held k, hbefore, hafter]
  · rw [hcount, h.value]

/-- The creation of a thread does nothing at the character. -/
theorem Shows.create {file : List UInt8} {c : Fin 128} {threads : Fin 8 → Option Runner}
    {count : Fin 128 → ℤ} {race : RaceState (Fin 8)} (h : Shows file c threads count race)
    (k : Fin 8) (hnone : threads k = none) :
    Shows file c (Function.update threads k
      (some (loopTest (sectionEnd (size file) k) (sectionStart (size file) k)))) count race := by
  obtain ⟨-, hle, -⟩ := section_bounds file k
  apply h.stutter k _ (loopTest_inSection file k _ le_rfl)
  · rw [next_loopTest file k _ hle, hnone, next]
  · rw [hnone, pending]
  · exact pending_loopTest file c _ _
  · rfl

/-- A step at another character does nothing at the character. -/
theorem Shows.other {file : List UInt8} {c selected : Fin 128} {threads : Fin 8 → Option Runner}
    {count count' : Fin 128 → ℤ} {race : RaceState (Fin 8)} (h : Shows file c threads count race)
    {k : Fin 8} {t t' : Runner} {i : ℤ} (hthread : threads k = some t)
    (hi : next file k (some t) = i) (hselected : counterAt file i = some selected)
    (hne : selected ≠ c) (hmoves : RunnerMoves file k count t t' count') :
    Shows file c (Function.update threads k (some t')) count' race := by
  have hin := h.inSection k t hthread
  have hother : counterAt file i ≠ some c := by
    rw [hselected]
    exact fun heq => hne (Option.some.inj heq)
  cases hmoves with
  | load i' selected' hselected' =>
    obtain rfl : i' = i := hi
    apply h.stutter k (.store i' (count selected')) hin
    · rw [hthread, next, next]
    · rw [hthread, pending]
    · rw [pending, if_neg hother]
    · rfl
  | store i' value selected' hselected' =>
    obtain rfl : i' = i := hi
    obtain ⟨hstart, -, hend⟩ := section_bounds file k
    obtain ⟨hfirst, hlast⟩ := hin
    obtain rfl := Option.some.inj (hselected.symm.trans hselected')
    apply h.stutter k _ (loopTest_inSection file k (i' + 1) (by omega))
    · rw [hthread, next_loopTest file k (i' + 1) (by omega), next,
        counted_succ file _ i' hstart hfirst (hlast.trans hend) selected c hselected,
        if_neg hne.symm, add_zero]
    · rw [hthread, pending, if_neg hother]
    · exact pending_loopTest file c _ _
    · exact Function.update_of_ne hne.symm _ _

/-- A position of a section that holds the character is one of its occurrences there. -/
theorem counted_lt_sectionCount {file : List UInt8} {c : Fin 128} {k : Fin 8} {i : ℤ}
    (hi : sectionStart (size file) k ≤ i ∧ i ≤ sectionEnd (size file) k)
    (hselected : counterAt file i = some c) :
    counted file (sectionStart (size file) k) i c < sectionCount file c k := by
  obtain ⟨hstart, -, hend⟩ := section_bounds file k
  have hsucc := counted_succ file _ i hstart hi.1 (hi.2.trans hend) c c hselected
  rw [if_pos rfl] at hsucc
  apply (Nat.lt_succ_self _).trans_le
  rw [Nat.succ_eq_add_one, ← hsucc, sectionCount, counted, counted]
  apply Finset.card_le_card
  apply Finset.monotone_filter_right
  intro j _ hj
  exact ⟨⟨hj.1.1, by omega⟩, hj.2⟩

/-- A thread that reads the counter of the character reads it in the race. -/
theorem Shows.load {file : List UInt8} {c : Fin 128} {threads : Fin 8 → Option Runner}
    {count : Fin 128 → ℤ} {race : RaceState (Fin 8)} (h : Shows file c threads count race)
    {k : Fin 8} {i : ℤ} (hthread : threads k = some (.load i)) (hc : counterAt file i = some c) :
    RaceStep (sectionCount file c) race
        { race with held := Function.update race.held k (some race.value) } ∧
      Shows file c (Function.update threads k (some (.store i (count c)))) count
        { race with held := Function.update race.held k (some race.value) } := by
  have hin : sectionStart (size file) k ≤ i ∧ i ≤ sectionEnd (size file) k :=
    h.inSection k _ hthread
  have hdone := h.done k
  have hheld := h.held k
  rw [hthread, next] at hdone
  rw [hthread, pending, Option.map_eq_none_iff] at hheld
  refine ⟨.load k hheld (hdone ▸ counted_lt_sectionCount hin hc), ?_⟩
  apply h.move k (.store i (count c)) _ hin
  · rw [next, ← hdone, Function.update_eq_self]
  · intro j hj
    exact Function.update_of_ne hj _ _
  · change (Function.update race.held k (some race.value) k).map Nat.cast = _
    rw [Function.update_self, pending, if_pos hc, h.value, Option.map_some]
  · exact h.value

/-- A thread that writes the counter of the character writes it in the race. -/
theorem Shows.store {file : List UInt8} {c : Fin 128} {threads : Fin 8 → Option Runner}
    {count : Fin 128 → ℤ} {race : RaceState (Fin 8)} (h : Shows file c threads count race)
    {k : Fin 8} {i value : ℤ} (hthread : threads k = some (.store i value))
    (hc : counterAt file i = some c) :
    ∃ v : ℕ, (v : ℤ) = value ∧ race.held k = some v ∧
      Shows file c
        (Function.update threads k (some (loopTest (sectionEnd (size file) k) (i + 1))))
        (Function.update count c (value + 1))
        ⟨Function.update race.done k (race.done k + 1), Function.update race.held k none, v + 1⟩ := by
  obtain ⟨hstart, -, hend⟩ := section_bounds file k
  have hin : sectionStart (size file) k ≤ i ∧ i ≤ sectionEnd (size file) k :=
    h.inSection k _ hthread
  have hdone := h.done k
  have hheld := h.held k
  rw [hthread, next] at hdone
  rw [hthread, pending, if_pos hc, Option.map_eq_some_iff] at hheld
  obtain ⟨v, hv, rfl⟩ := hheld
  refine ⟨v, rfl, hv, ?_⟩
  apply h.move k _ _ (loopTest_inSection file k (i + 1) (by omega))
  · rw [next_loopTest file k (i + 1) (by omega),
      counted_succ file _ i hstart hin.1 (hin.2.trans hend) c c hc, if_pos rfl, ← hdone]
  · intro j hj
    exact Function.update_of_ne hj _ _
  · change (Function.update race.held k none k).map Nat.cast = _
    rw [Function.update_self, pending_loopTest, Option.map_none]
  · change Function.update count c ((v : ℤ) + 1) c = ((v + 1 : ℕ) : ℤ)
    rw [Function.update_self, Nat.cast_succ]

/-- A step of a thread is one of the race, or does nothing there. -/
theorem Shows.step {file : List UInt8} {c : Fin 128} {threads : Fin 8 → Option Runner}
    {count count' : Fin 128 → ℤ} {race : RaceState (Fin 8)} (h : Shows file c threads count race)
    {k : Fin 8} {t t' : Runner} (hthread : threads k = some t)
    (hmoves : RunnerMoves file k count t t' count') :
    ∃ race', (race' = race ∨ RaceStep (sectionCount file c) race race') ∧
      Shows file c (Function.update threads k (some t')) count' race' := by
  cases hmoves with
  | load i selected hselected =>
    by_cases hc : selected = c
    · subst hc
      obtain ⟨hstep, hshows⟩ := h.load hthread hselected
      exact ⟨_, Or.inr hstep, hshows⟩
    · exact ⟨race, Or.inl rfl, h.other hthread rfl hselected hc (.load i selected hselected)⟩
  | store i value selected hselected =>
    by_cases hc : selected = c
    · subst hc
      obtain ⟨v, -, hheld, hshows⟩ := h.store hthread hselected
      exact ⟨_, Or.inr (.store k v hheld), hshows⟩
    · exact ⟨race, Or.inl rfl, h.other hthread rfl hselected hc (.store i value selected hselected)⟩

/-- Every reachable state shows one that the race runs to. -/
theorem exists_shows_of_reachable {file : List UInt8}
    {s : TeamState (Fin 8) Runner (Fin 128 → ℤ) Unit} (hs : (team file).Reachable s)
    (c : Fin 128) :
    ∃ race, RaceRun (sectionCount file c) RaceState.initial race ∧
      Shows file c s.threads s.shared race := by
  apply hs.threads_invariant fun threads count =>
    ∃ race, RaceRun (sectionCount file c) RaceState.initial race ∧ Shows file c threads count race
  · refine ⟨RaceState.initial, .refl, ?_, ?_, ?_, rfl⟩
    · intro k t hnone
      cases hnone
    · intro k
      exact (counted_self file _ c).symm
    · intro k
      rfl
  · rintro threads count k ⟨race, hrun, hshows⟩ hnone
    exact ⟨race, hrun, hshows.create k hnone⟩
  · rintro threads count k t t' count' ⟨race, hrun, hshows⟩ hthread hstep
    obtain ⟨race', hrace, hshows'⟩ := hshows.step hthread (runnerMoves_iff.mp hstep)
    refine ⟨race', ?_, hshows'⟩
    obtain rfl | hrace := hrace
    · exact hrun
    · exact hrun.tail hrace

/-- All threads remain created when one of them steps. -/
theorem update_ne_none {threads : Fin 8 → Option Runner} (hall : ∀ j, threads j ≠ none)
    (k : Fin 8) (t : Runner) (j : Fin 8) : Function.update threads k (some t) j ≠ none := by
  by_cases hj : j = k
  · rw [hj, Function.update_self]
    exact Option.some_ne_none t
  · rw [Function.update_of_ne hj]
    exact hall j

/-- A thread that has occurrences of the character left can come to the next one before any other
thread steps. -/
theorem exists_at_load {file : List UInt8} (hfits : Fits file)
    (hascii : ∀ b ∈ file, b.toNat < 128) {c : Fin 128} {race : RaceState (Fin 8)} {k : Fin 8}
    (hheld : race.held k = none) (hleft : race.done k < sectionCount file c k)
    {s : TeamState (Fin 8) Runner (Fin 128 → ℤ) Unit} (hs : (team file).Reachable s)
    (hall : ∀ j, s.threads j ≠ none) (hshows : Shows file c s.threads s.shared race)
    (t : Runner) (hthread : s.threads k = some t) :
    ∃ s' i, (team file).Reachable s' ∧ (∀ j, s'.threads j ≠ none) ∧
      Shows file c s'.threads s'.shared race ∧ s'.threads k = some (.load i) ∧
      counterAt file i = some c := by
  induction hroom : t.left (sectionEnd (size file) k) using Nat.strong_induction_on
    generalizing s t with
  | _ room ih =>
    subst hroom
    -- A step at another character comes closer to the next occurrence.
    have hcloser : ∀ selected t' count', counterAt file (next file k (some t)) = some selected →
        selected ≠ c → RunnerMoves file k s.shared t t' count' →
        ∃ s' i, (team file).Reachable s' ∧ (∀ j, s'.threads j ≠ none) ∧
          Shows file c s'.threads s'.shared race ∧ s'.threads k = some (.load i) ∧
          counterAt file i = some c := by
      intro selected t' count' hselected hne hmoves
      exact ih _ (left_lt hmoves) (hs.threadStep hthread (runnerMoves_iff.mpr hmoves))
        (update_ne_none hall k t') (hshows.other hthread rfl hselected hne hmoves) t'
        (Function.update_self k (some t') s.threads) rfl
    have hin := hshows.inSection k t hthread
    cases t with
    | load i =>
      obtain ⟨selected, hselected⟩ := exists_selected hfits hascii hin
      by_cases hc : selected = c
      · exact ⟨s, i, hs, hall, hshows, hthread, hc ▸ hselected⟩
      · exact hcloser selected _ _ hselected hc (.load i selected hselected)
    | store i value =>
      obtain ⟨selected, hselected⟩ := exists_selected hfits hascii hin
      by_cases hc : selected = c
      · have hpending := hshows.held k
        rw [hthread, pending, if_pos (hc ▸ hselected), hheld] at hpending
        cases hpending
      · exact hcloser selected _ _ hselected hc (.store i value selected hselected)
    | exited =>
      have hdone := hshows.done k
      rw [hthread, next] at hdone
      exact absurd hdone hleft.ne

/-- Every state that the race runs to is shown by a reachable one. -/
theorem exists_reachable_of_run {file : List UInt8} (hfits : Fits file)
    (hascii : ∀ b ∈ file, b.toNat < 128) {c : Fin 128} {race : RaceState (Fin 8)}
    (hrun : RaceRun (sectionCount file c) RaceState.initial race) :
    ∃ s, (team file).Reachable s ∧ (∀ k, s.threads k ≠ none) ∧
      Shows file c s.threads s.shared race := by
  induction hrun with
  | refl =>
    obtain ⟨s, hs, -, hshared, hthreads⟩ :=
      (team file).exists_created (team file).order.length le_rfl
    have hstarted : ∀ k, s.threads k =
        some (loopTest (sectionEnd (size file) k) (sectionStart (size file) k)) := by
      intro k
      apply hthreads k
      rw [List.take_length]
      exact (team file).complete k
    refine ⟨s, hs, fun k => ?_, ?_, ?_, ?_, ?_⟩
    · rw [hstarted k]
      exact Option.some_ne_none _
    · intro k t hthread
      exact inSection_of_reachable hs k t hthread
    · intro k
      obtain ⟨-, hle, -⟩ := section_bounds file k
      rw [hstarted k, next_loopTest file k _ hle, counted_self]
      rfl
    · intro k
      rw [hstarted k, pending_loopTest]
      rfl
    · rw [hshared]
      rfl
  | tail _ hstep ih =>
    obtain ⟨s, hs, hall, hshows⟩ := ih
    cases hstep with
    | load k hheld hleft =>
      obtain ⟨t, hthread⟩ := Option.ne_none_iff_exists'.mp (hall k)
      obtain ⟨s', i, hs', hall', hshows', hthread', hc⟩ :=
        exists_at_load hfits hascii hheld hleft hs hall hshows t hthread
      exact ⟨_, hs'.threadStep hthread' ((runnerMoves_iff (k := k)).mpr (.load i c hc)),
        update_ne_none hall' k _, (hshows'.load hthread' hc).2⟩
    | store k v hheld =>
      obtain ⟨t, hthread⟩ := Option.ne_none_iff_exists'.mp (hall k)
      have hpending := hshows.held k
      rw [hheld, hthread, Option.map_some] at hpending
      cases t with
      | load i => cases hpending
      | store i value =>
        by_cases hc : counterAt file i = some c
        · obtain ⟨v', rfl, hheld', hshows'⟩ := hshows.store hthread hc
          obtain rfl := Option.some.inj (hheld.symm.trans hheld')
          exact ⟨_, hs.threadStep hthread (runnerMoves_iff.mpr (.store i v c hc)),
            update_ne_none hall k _, hshows'⟩
        · rw [pending, if_neg hc] at hpending
          cases hpending
      | exited => cases hpending

/-- The race is finished when all threads have exited. -/
theorem Shows.finished {file : List UInt8} {c : Fin 128} {threads : Fin 8 → Option Runner}
    {count : Fin 128 → ℤ} {race : RaceState (Fin 8)} (h : Shows file c threads count race)
    (hexited : ∀ k, ∃ t, threads k = some t ∧ t.hasExited = true) :
    race.Finished (sectionCount file c) := by
  have hthreads : ∀ k, threads k = some .exited := by
    intro k
    obtain ⟨t, hthread, ht⟩ := hexited k
    cases t <;> first | exact hthread | cases ht
  constructor
  · intro k
    rw [h.done k, hthreads k, next, sectionCount]
  · intro k
    have hheld := h.held k
    rw [hthreads k, pending, Option.map_eq_none_iff] at hheld
    exact hheld

/-- Every schedule ends, and each counter with one of the values that the race can end with. -/
theorem delivers_bounds {file : List UInt8} (hfits : Fits file)
    (hascii : ∀ b ∈ file, b.toNat < 128) :
    (team file).Delivers fun s => ∀ c,
      (fewest (sectionCount file c) : ℤ) ≤ s.shared c ∧ s.shared c ≤ occurrences file c := by
  refine ⟨?_, ?_, ?_⟩
  · refine ⟨(team file).remaining (fun k t => t.left (sectionEnd (size file) k))
      (team file).initial, ?_⟩
    intro schedule s hrun
    apply (team file).schedule_length_le _ _ schedule hrun
    intro s' _ k t t' count _ hstep
    exact left_lt (runnerMoves_iff.mp hstep)
  · intro s hs hstuck
    apply hs.returned_of_stuck _ hstuck
    intro k t hthread hexited
    obtain ⟨t', count', hmoves⟩ :=
      exists_moves hfits hascii (inSection_of_reachable hs k t hthread) hexited s.shared
    have hstep : (team file).step k t s.shared = some (t', count') := runnerMoves_iff.mpr hmoves
    refine ⟨k, ?_⟩
    simp [Team.threadStep, hthread, hstep]
  · intro s hs hreturned c
    obtain ⟨race, hrun, hshows⟩ := exists_shows_of_reachable hs c
    have hfinished := hshows.finished (hs.returned hreturned).1
    have hle := le_sum_of_run hrun hfinished
    rw [hshows.value, ← sum_counted file hfits hascii c]
    exact ⟨Int.ofNat_le.mpr (fewest_le_of_run hrun hfinished), Int.ofNat_le.mpr hle⟩

/-- A schedule can end with every value that the race can end with. -/
theorem exists_returned_iff {file : List UInt8} (hfits : Fits file)
    (hascii : ∀ b ∈ file, b.toNat < 128) (c : Fin 128) (value : ℤ) :
    (∃ s, (team file).Reachable s ∧ (team file).Returned s ∧ s.shared c = value) ↔
      (fewest (sectionCount file c) : ℤ) ≤ value ∧ value ≤ occurrences file c := by
  constructor
  · rintro ⟨s, hs, hreturned, rfl⟩
    exact (delivers_bounds hfits hascii).holds s hs hreturned c
  · rintro ⟨hfewest, hvalue⟩
    obtain ⟨n, rfl⟩ := Int.eq_ofNat_of_zero_le ((Int.natCast_nonneg _).trans hfewest)
    rw [← sum_counted file hfits hascii c] at hvalue
    obtain ⟨race, hrun, hfinished, rfl⟩ := (exists_finished_iff n).mpr
      ⟨Int.ofNat_le.mp hfewest, Int.ofNat_le.mp hvalue⟩
    obtain ⟨s, hs, -, hshows⟩ := exists_reachable_of_run hfits hascii hrun
    -- The steps that are left do nothing at this character.
    have hkept : ∀ s s', (team file).Reachable s → Shows file c s.threads s.shared race →
        (team file).Moves s s' → Shows file c s'.threads s'.shared race := by
      intro s s' hs hshows hmoves
      cases hmoves with
      | create k hnext => exact hshows.create k (hs.ordered.not_created hnext)
      | join k t hall hnext hthread hexited => exact hshows
      | thread k t t' count' hthread hstep =>
        obtain ⟨race', hrace, hshows'⟩ := hshows.step hthread (runnerMoves_iff.mp hstep)
        obtain rfl | hrace := hrace
        · exact hshows'
        · exact absurd hrace hfinished.not_step
    obtain ⟨s', hs', hreturned, hshows'⟩ :=
      (delivers_bounds hfits hascii).exists_returned_of _ hshows hs hkept
    exact ⟨s', hs', hreturned, hshows'.value⟩

/-- For a file of at most 65536 bytes below 128 every schedule of the threads ends, and the printed
count of a character can be exactly the numbers from `fewest` to that of its occurrences: all of
them if only one section holds it, and else at least one if some section holds it just once, or
two. -/
theorem count_range (file : List UInt8) (hlength : file.length ≤ 65536)
    (hascii : ∀ b ∈ file, b.toNat < 128) :
    ∃ team, main file = some team ∧ (team.Delivers fun s => ∀ c,
        (fewest (sectionCount file c) : ℤ) ≤ s.shared c ∧ s.shared c ≤ occurrences file c) ∧
      ∀ c value, (fewest (sectionCount file c) : ℤ) ≤ value ∧ value ≤ occurrences file c →
        ∃ s, team.Reachable s ∧ team.Returned s ∧ s.shared c = value := by
  have hfits : Fits file := by
    rw [Fits, size]
    omega
  exact ⟨_, if_pos hfits, delivers_bounds hfits hascii,
    fun c value => (exists_returned_iff hfits hascii c value).mpr⟩

/-- A file of nine letters `a`, of which a schedule counts only one. -/
theorem count_range_nine :
    ∃ team, main (List.replicate 9 97) = some team ∧
      ∃ s, team.Reachable s ∧ team.Returned s ∧ s.shared 97 = 1 := by
  obtain ⟨team, hmain, -, hrange⟩ :=
    count_range (List.replicate 9 97) (by decide) (by simp)
  exact ⟨team, hmain, hrange 97 1 (by decide +kernel)⟩

end Coursework.Histogram.ASCIICount2
