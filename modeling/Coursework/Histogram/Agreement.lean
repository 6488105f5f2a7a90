import Coursework.Histogram.ASCIICount
import Coursework.Histogram.ASCIICountS

/-!
# The two histograms agree

The sections cover each position of the file once, so the shared counters and the sum of
the private ones both end as the histogram of the file, whatever the schedule.
-/

namespace Coursework.Histogram

/-- For a file of at most 65536 bytes below 128, the sections cover exactly its positions, each once,
and both programs end every schedule with the number of occurrences of each character. -/
theorem histograms_agree (file : List UInt8) (hlength : file.length ≤ 65536)
    (hascii : ∀ b ∈ file, b.toNat < 128) :
    (∀ j : ℤ, (0 ≤ j ∧ j < file.length) →
        ∃! k, sectionStart (size file) k ≤ j ∧ j ≤ sectionEnd (size file) k) ∧
      (∀ k (j : ℤ), sectionStart (size file) k ≤ j ∧ j ≤ sectionEnd (size file) k →
        0 ≤ j ∧ j < file.length) ∧
      (∃ team, ASCIICountS.main file = some team ∧
        team.Delivers fun s => ∀ c, s.shared.count c = occurrences file c) ∧
      ∀ garbage, ∃ team, ASCIICount.main file garbage = some team ∧
        team.Delivers fun s => ∀ c, s.result c = occurrences file c := by
  have hfits : Fits file := by
    rw [Fits, size]
    omega
  refine ⟨?_, ?_, ?_, ?_⟩
  · rintro j ⟨h0, hj⟩
    apply existsUnique_section file j h0
    rw [size]
    omega
  · rintro k j ⟨hfirst, hlast⟩
    obtain ⟨hstart, -, hend⟩ := section_bounds file k
    have hsize : size file = file.length - 1 := rfl
    omega
  · exact ⟨_, if_pos hfits, ASCIICountS.delivers_occurrences file hfits hascii⟩
  · intro garbage
    exact ⟨_, if_pos hfits, ASCIICount.delivers_occurrences file hfits hascii garbage⟩

/-- The text `abba` five times: the last thread counts six characters, and each of the others two. -/
theorem histograms_agree_abba :
    let file : List UInt8 := (List.replicate 5 [97, 98, 98, 97]).flatten
    (∀ j : ℤ, (0 ≤ j ∧ j < file.length) →
        ∃! k, sectionStart (size file) k ≤ j ∧ j ≤ sectionEnd (size file) k) ∧
      (∀ k (j : ℤ), sectionStart (size file) k ≤ j ∧ j ≤ sectionEnd (size file) k →
        0 ≤ j ∧ j < file.length) ∧
      (∃ team, ASCIICountS.main file = some team ∧
        team.Delivers fun s => ∀ c, s.shared.count c = occurrences file c) ∧
      ∀ garbage, ∃ team, ASCIICount.main file garbage = some team ∧
        team.Delivers fun s => ∀ c, s.result c = occurrences file c :=
  histograms_agree _ (by decide) (by simp)

end Coursework.Histogram
