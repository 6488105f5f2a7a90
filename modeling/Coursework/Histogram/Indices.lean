import Coursework.Histogram.ASCIICount
import Coursework.Histogram.ASCIICount2
import Coursework.Histogram.ASCIICountS

/-!
# The indices that the threads use

A thread reads the buffer at each position of its section, from the first one on, as long
as the characters are indices of counters. A character is signed, so that it is such an
index only if its byte is below 128.
-/

namespace Coursework.Histogram

open Concurrency

/-- The position is one of the buffer, and the character there is the index of a counter. -/
def InRange (file : List UInt8) (i : ℤ) : Prop :=
  (0 ≤ i ∧ i < 65536) ∧ ∃ c, character file i = some c ∧ 0 ≤ c ∧ c < 128

section Sweep

variable {τ σ ρ : Type*} (file : List UInt8) (team : Team (Fin 8) τ σ ρ) (reads : τ → Option ℤ)

/-- Some run comes to where a thread reads the buffer at a position. -/
def Reads (k : Fin 8) (i : ℤ) : Prop :=
  ∃ s, team.Reachable s ∧ ∃ t, s.threads k = some t ∧ reads t = some i

/-- Every index that a thread uses in any run is in range. -/
def IndicesInRange : Prop := ∀ k i, Reads team reads k i → InRange file i

/-- The threads read the positions of their sections one after the other, as long as the indices are
in range. -/
structure Sweeps : Prop where
  inSection : ∀ k i, Reads team reads k i →
    sectionStart (size file) k ≤ i ∧ i ≤ sectionEnd (size file) k
  first : ∀ k, sectionStart (size file) k ≤ sectionEnd (size file) k →
    Reads team reads k (sectionStart (size file) k)
  next : ∀ k i, Reads team reads k i → InRange file i → i < sectionEnd (size file) k →
    Reads team reads k (i + 1)

end Sweep

/-- A signed character is not negative exactly if its byte is below 128. -/
theorem toInt_toInt8_nonneg_iff (b : UInt8) : 0 ≤ b.toInt8.toInt ↔ b.toNat < 128 := by
  constructor
  · intro h
    by_contra hge
    have hbits : b.toInt8.toInt = (b.toBitVec).toInt := rfl
    have hnat : b.toBitVec.toNat = b.toNat := rfl
    rw [hbits, BitVec.toInt_eq_toNat_cond, hnat, if_neg (by omega)] at h
    have hlt := b.toNat_lt
    omega
  · intro h
    rw [toInt_toInt8 b h]
    exact Int.natCast_nonneg _

/-- In a file that fits, the indices at a position are in range exactly if its byte is below 128. -/
theorem inRange_iff (file : List UInt8) (hfits : Fits file) (j : ℕ) (hj : j < file.length) :
    InRange file j ↔ (file[j]).toNat < 128 := by
  have hbound : (0 : ℤ) ≤ j ∧ (j : ℤ) < 65536 := by
    rw [Fits, size] at hfits
    omega
  have hcharacter : character file j = some (file[j]).toInt8.toInt := by
    rw [character, if_pos hbound, Int.toNat_natCast, List.getD_eq_getElem file 0 hj]
  rw [InRange, hcharacter, ← toInt_toInt8_nonneg_iff]
  constructor
  · rintro ⟨-, c, hc, hnonneg, -⟩
    exact Option.some.inj hc ▸ hnonneg
  · intro hnonneg
    refine ⟨hbound, _, rfl, hnonneg, ?_⟩
    have hlt := (toInt_toInt8_nonneg_iff _).mp hnonneg
    rw [toInt_toInt8 _ hlt]
    omega

/-- Indices in range select a counter. -/
theorem InRange.exists_counterAt {file : List UInt8} {i : ℤ} (h : InRange file i) :
    ∃ c, counterAt file i = some c := by
  obtain ⟨-, c, hc, hbounds⟩ := h
  rw [counterAt, hc, Option.bind_some, entry, dif_pos hbounds]
  exact ⟨_, rfl⟩

/-- Threads that sweep their sections use indices in range exactly if all bytes are below 128. -/
theorem Sweeps.indicesInRange_iff {τ σ ρ : Type*} {file : List UInt8} {team : Team (Fin 8) τ σ ρ}
    {reads : τ → Option ℤ} (h : Sweeps file team reads) (hfits : Fits file) :
    IndicesInRange file team reads ↔ ∀ b ∈ file, b.toNat < 128 := by
  constructor
  · intro hall b hb
    obtain ⟨j, hj, rfl⟩ := List.getElem_of_mem hb
    obtain ⟨k, hstart, hend⟩ := exists_section file j (Int.natCast_nonneg j) (by
      rw [size]
      omega)
    have hreads : ∀ i : ℤ, sectionStart (size file) k ≤ i → i ≤ sectionEnd (size file) k →
        Reads team reads k i := by
      intro i hi
      induction i, hi using Int.leInduction with
      | base => exact h.first k
      | succ i _ ih =>
        intro hnext
        have hi := ih (by omega)
        exact h.next k i hi (hall k i hi) (by omega)
    exact (inRange_iff file hfits j hj).mp (hall k j (hreads j hstart hend))
  · intro hascii k i hreads
    obtain ⟨hfirst, hlast⟩ := h.inSection k i hreads
    obtain ⟨hstart, -, hend⟩ := section_bounds file k
    obtain ⟨j, rfl⟩ := Int.eq_ofNat_of_zero_le (hstart.trans hfirst)
    have hj : j < file.length := by
      have hsize : size file = file.length - 1 := rfl
      omega
    exact (inRange_iff file hfits j hj).mpr (hascii _ (List.getElem_mem hj))

namespace ASCIICount

/-- The position at which the next step of a thread reads the buffer. -/
def Runner.reads (t : Runner) : Option ℤ :=
  match t.phase with
  | .counting i => some i
  | .zeroing _ | .exited => none

/-- The threads of the program sweep their sections. -/
theorem sweeps (file : List UInt8) (garbage : Fin 8 → Fin 128 → ℤ) :
    Sweeps file (team file garbage) Runner.reads := by
  refine ⟨?_, ?_, ?_⟩
  · rintro k i ⟨s, hs, t, hthread, hreads⟩
    have hcounts := counts_of_reachable hs k t hthread
    obtain ⟨count, phase⟩ := t
    cases phase with
    | counting i' =>
      obtain rfl := Option.some.inj hreads
      exact hcounts.1
    | zeroing i' => cases hreads
    | exited => cases hreads
  · intro k hle
    have hzeroing : ∀ n ≤ 128, ∃ s, (team file garbage).Reachable s ∧
        ∃ t, s.threads k = some t ∧
          t.phase = zeroingTest (sectionStart (size file) k) (sectionEnd (size file) k) n := by
      intro n
      induction n with
      | zero =>
        intro _
        obtain ⟨s, hs, hthread, -⟩ := (team file garbage).exists_started k
        exact ⟨s, hs, _, hthread, rfl⟩
      | succ n ih =>
        intro hn
        obtain ⟨s, hs, ⟨count, phase⟩, hthread, hphase⟩ := ih (Nat.le_of_succ_le hn)
        obtain rfl : phase = .zeroing n := hphase.trans (if_pos hn)
        obtain ⟨s', hs', hthread', -⟩ := hs.thread hthread rfl
        exact ⟨s', hs', _, hthread', rfl⟩
    obtain ⟨s, hs, ⟨count, phase⟩, hthread, hphase⟩ := hzeroing 128 le_rfl
    obtain rfl : phase = .counting _ := hphase.trans (if_pos hle)
    exact ⟨s, hs, _, hthread, rfl⟩
  · rintro k i ⟨s, hs, ⟨count, phase⟩, hthread, hreads⟩ hin hlt
    cases phase with
    | counting i' =>
      obtain rfl := Option.some.inj hreads
      obtain ⟨c, hc⟩ := hin.exists_counterAt
      have hstep : (team file garbage).step k ⟨count, .counting i'⟩ s.shared =
          some (⟨Function.update count c (count c + 1), .counting (i' + 1)⟩, ()) := by
        simp only [team, runner, hc, countingTest, if_pos (show i' + 1 ≤ _ from hlt),
          Option.map_some]
      obtain ⟨s', hs', hthread', -⟩ := hs.thread hthread hstep
      exact ⟨s', hs', _, hthread', rfl⟩
    | zeroing i' => cases hreads
    | exited => cases hreads

end ASCIICount

namespace ASCIICount2

/-- The position at which the next step of a thread reads the buffer. -/
def Runner.reads : Runner → Option ℤ
  | .load i | .store i _ => some i
  | .exited => none

/-- The threads of the program sweep their sections. -/
theorem sweeps (file : List UInt8) : Sweeps file (team file) Runner.reads := by
  refine ⟨?_, ?_, ?_⟩
  · rintro k i ⟨s, hs, t, hthread, hreads⟩
    have hsection := inSection_of_reachable hs k t hthread
    cases t with
    | load i' => exact Option.some.inj hreads ▸ hsection
    | store i' value => exact Option.some.inj hreads ▸ hsection
    | exited => cases hreads
  · intro k hle
    obtain ⟨s, hs, hthread, -⟩ := (team file).exists_started k
    exact ⟨s, hs, _, hthread, by simp only [team, loopTest, if_pos hle, Runner.reads]⟩
  · rintro k i ⟨s, hs, t, hthread, hreads⟩ hin hlt
    obtain ⟨c, hc⟩ := hin.exists_counterAt
    have hstore : ∀ s value, (team file).Reachable s → s.threads k = some (.store i value) →
        Reads (team file) Runner.reads k (i + 1) := by
      intro s value hs hthread
      have hstep : (team file).step k (.store i value) s.shared =
          some (.load (i + 1), Function.update s.shared c (value + 1)) := by
        simp only [team, runner, hc, loopTest, if_pos (show i + 1 ≤ _ from hlt)]
      obtain ⟨s', hs', hthread', -⟩ := hs.thread hthread hstep
      exact ⟨s', hs', _, hthread', rfl⟩
    cases t with
    | load i' =>
      obtain rfl := Option.some.inj hreads
      have hstep : (team file).step k (.load i') s.shared =
          some (.store i' (s.shared c), s.shared) := by
        simp only [team, runner, hc]
      obtain ⟨s', hs', hthread', -⟩ := hs.thread hthread hstep
      exact hstore s' _ hs' hthread'
    | store i' value =>
      obtain rfl := Option.some.inj hreads
      exact hstore s value hs hthread
    | exited => cases hreads

end ASCIICount2

namespace ASCIICountS

/-- The position at which the next step of a thread reads the buffer. -/
def Runner.reads : Runner → Option ℤ
  | .load i | .store i _ => some i
  | .lock _ | .unlock _ | .exited => none

/-- A thread that is about to lock the free mutex reads the buffer at its position. -/
theorem reads_of_lock {file : List UInt8} {k : Fin 8} {i : ℤ}
    {s : TeamState (Fin 8) Runner Shared Unit} (hs : (team file).Reachable s)
    (hthread : s.threads k = some (.lock i)) (hfree : s.shared.mutex = none) :
    Reads (team file) Runner.reads k i := by
  have hstep : (team file).step k (.lock i) s.shared =
      some (.load i, { s.shared with mutex := some k }) := by
    simp only [team, runner, hfree, Option.isNone_none, if_true]
  obtain ⟨s', hs', hthread', -⟩ := hs.thread hthread hstep
  exact ⟨s', hs', _, hthread', rfl⟩

/-- The threads of the program sweep their sections. -/
theorem sweeps (file : List UInt8) : Sweeps file (team file) Runner.reads := by
  refine ⟨?_, ?_, ?_⟩
  · rintro k i ⟨s, hs, t, hthread, hreads⟩
    have hsection := (counting_of_reachable hs).inSection k t hthread
    cases t with
    | load i' => exact Option.some.inj hreads ▸ hsection
    | store i' value => exact Option.some.inj hreads ▸ hsection
    | lock i' => cases hreads
    | unlock i' => cases hreads
    | exited => cases hreads
  · intro k hle
    obtain ⟨s, hs, hthread, hshared⟩ := (team file).exists_started k
    have hlock : s.threads k = some (.lock (sectionStart (size file) k)) := by
      rw [hthread]
      simp only [team, loopTest, if_pos hle]
    exact reads_of_lock hs hlock (congrArg Shared.mutex hshared)
  · rintro k i ⟨s, hs, t, hthread, hreads⟩ hin hlt
    obtain ⟨c, hc⟩ := hin.exists_counterAt
    have hstore : ∀ s value, (team file).Reachable s → s.threads k = some (.store i value) →
        Reads (team file) Runner.reads k (i + 1) := by
      intro s value hs hthread
      have hstep : (team file).step k (.store i value) s.shared =
          some (.unlock i,
            { s.shared with count := Function.update s.shared.count c (value + 1) }) := by
        simp only [team, runner, hc]
      obtain ⟨s₁, hs₁, hthread₁, -⟩ := hs.thread hthread hstep
      have hunlock : (team file).step k (.unlock i) s₁.shared =
          some (.lock (i + 1), { s₁.shared with mutex := none }) := by
        simp only [team, runner, loopTest, if_pos (show i + 1 ≤ _ from hlt)]
      obtain ⟨s₂, hs₂, hthread₂, hshared₂⟩ := hs₁.thread hthread₁ hunlock
      exact reads_of_lock hs₂ hthread₂ (congrArg Shared.mutex hshared₂)
    cases t with
    | load i' =>
      obtain rfl := Option.some.inj hreads
      have hstep : (team file).step k (.load i') s.shared =
          some (.store i' (s.shared.count c), s.shared) := by
        simp only [team, runner, hc]
      obtain ⟨s', hs', hthread', -⟩ := hs.thread hthread hstep
      exact hstore s' _ hs' hthread'
    | store i' value =>
      obtain rfl := Option.some.inj hreads
      exact hstore s value hs hthread
    | lock i' => cases hreads
    | unlock i' => cases hreads
    | exited => cases hreads

end ASCIICountS

/-- In each of the three programs, for a file of at most 65536 bytes, every index that a thread uses
in any run is in range exactly if all bytes are below 128. -/
theorem indices_in_range_iff (file : List UInt8) (hlength : file.length ≤ 65536) :
    (∀ garbage, ∃ team, ASCIICount.main file garbage = some team ∧
        (IndicesInRange file team ASCIICount.Runner.reads ↔ ∀ b ∈ file, b.toNat < 128)) ∧
      (∃ team, ASCIICount2.main file = some team ∧
        (IndicesInRange file team ASCIICount2.Runner.reads ↔ ∀ b ∈ file, b.toNat < 128)) ∧
      ∃ team, ASCIICountS.main file = some team ∧
        (IndicesInRange file team ASCIICountS.Runner.reads ↔ ∀ b ∈ file, b.toNat < 128) := by
  have hfits : Fits file := by
    rw [Fits, size]
    omega
  refine ⟨fun garbage => ?_, ?_, ?_⟩
  · exact ⟨_, if_pos hfits, (ASCIICount.sweeps file garbage).indicesInRange_iff hfits⟩
  · exact ⟨_, if_pos hfits, (ASCIICount2.sweeps file).indicesInRange_iff hfits⟩
  · exact ⟨_, if_pos hfits, (ASCIICountS.sweeps file).indicesInRange_iff hfits⟩

/-- The file of the one letter `A`. -/
theorem indices_in_range_letter :
    ∃ team, ASCIICountS.main [65] = some team ∧
      IndicesInRange [65] team ASCIICountS.Runner.reads := by
  obtain ⟨team, hmain, hiff⟩ := (indices_in_range_iff [65] (show 1 ≤ 65536 by omega)).2.2
  exact ⟨team, hmain, hiff.mpr (by simp)⟩

/-- The file of the one byte 200, whose character is -56: each program has a run in which the last
thread uses it as an index. -/
theorem not_indices_in_range_byte :
    character [200] 0 = some (-56) ∧
      (∀ garbage team, ASCIICount.main [200] garbage = some team →
        ¬IndicesInRange [200] team ASCIICount.Runner.reads) ∧
      (∀ team, ASCIICount2.main [200] = some team →
        ¬IndicesInRange [200] team ASCIICount2.Runner.reads) ∧
      ∀ team, ASCIICountS.main [200] = some team →
        ¬IndicesInRange [200] team ASCIICountS.Runner.reads := by
  have hfits : Fits [200] := by decide
  have hnot : ¬∀ b ∈ [(200 : UInt8)], b.toNat < 128 := by
    intro hascii
    exact absurd (hascii 200 List.mem_cons_self) (by decide)
  refine ⟨by decide, ?_, ?_, ?_⟩
  · intro garbage team hmain
    obtain rfl := Option.some.inj ((if_pos hfits).symm.trans hmain)
    rwa [(ASCIICount.sweeps [200] garbage).indicesInRange_iff hfits]
  · intro team hmain
    obtain rfl := Option.some.inj ((if_pos hfits).symm.trans hmain)
    rwa [(ASCIICount2.sweeps [200]).indicesInRange_iff hfits]
  · intro team hmain
    obtain rfl := Option.some.inj ((if_pos hfits).symm.trans hmain)
    rwa [(ASCIICountS.sweeps [200]).indicesInRange_iff hfits]

end Coursework.Histogram
