import Coursework.Copy.Faithful

/-!
# What a copy leaves in any case

Every turn of the loop reads at least one byte or is the last one, so that `main` ends. What it
has written by then are bytes from the start of the first file, and it returns zero exactly if
no block that it came to was cut short.
-/

namespace Coursework.Copy

open Coursework.Posix
open Coursework.Transition

/-- The files are open, and every block that is read after blocks that were copied is written
whole. -/
structure WritesWhole (env : Environment) (argc : Int32) (file1 : File) : Prop where
  argc : argc = 3
  opensFile1 : env.opensFile1 = true
  createsFile2 : env.createsFile2 = true
  writes : ∀ i, Copied env file1 i → 0 < blockSize env file1 i (offsetAt env file1 i) →
    writeCount (env.writes i) (blockSize env file1 i (offsetAt env file1 i)) =
      some (blockSize env file1 i (offsetAt env file1 i))

/-- How `main` can end: with the bytes written so far from the start of the first file, and with
their number if it reports success. -/
structure Ends (file1 : File) (whole : Prop) (exit : Exit) : Prop where
  written : exit.final.written <+: file1.bytes
  status : exit.status = 0 ∧ exit.final.totalBytes.toInt = exit.final.written.length ∧ whole ∨
    exit.status = -1 ∧ ¬whole

variable {env : Environment} {file1 : File}

/-- The loop ends at a `read` of no bytes, which is only reached if all blocks were written whole. -/
theorem AtHead.ends_of_zero {i : ℕ} {s : State} (h : AtHead env file1 i s)
    (hcopied : Copied env file1 i) (hopens : env.opensFile1 = true)
    (hcreates : env.createsFile2 = true)
    (hzero : blockSize env file1 i (offsetAt env file1 i) = 0) :
    Ends file1 (WritesWhole env 3 file1) ⟨0, s⟩ := by
  have hle := offsetAt_le env file1 i
  have hsize := file1.size
  refine ⟨h.written ▸ List.take_prefix _ _, Or.inl ⟨rfl, ?_, rfl, hopens, hcreates, ?_⟩⟩
  · rw [h.totalBytes, h.written, Int64.toInt_ofNat_of_lt (by omega), List.length_take,
      Nat.min_eq_left hle]
  · intro j hj hpos
    rcases Nat.lt_trichotomy j i with hlt | rfl | hgt
    · exact (hcopied j hlt).2
    · exact absurd hzero (Nat.ne_of_gt hpos)
    · exact absurd hzero (Nat.ne_of_gt (hj i hgt).1)

/-- What is written of a block that is cut short are bytes of the first file, too. -/
theorem AtHead.written_writeBlock {i : ℕ} {s : State} (h : AtHead env file1 i s)
    (hpos : 0 < blockSize env file1 i (offsetAt env file1 i)) :
    (writeBlock env s).written <+: file1.bytes := by
  rw [writeBlock, h.asked hpos]
  change s.written ++ s.buffer.take ((writeCount (env.writes i)
    (blockSize env file1 i (offsetAt env file1 i))).getD 0) <+: file1.bytes
  cases hcount : writeCount (env.writes i) (blockSize env file1 i (offsetAt env file1 i)) with
  | none =>
    rw [Option.getD_none, List.take_zero, List.append_nil, h.written]
    exact List.take_prefix _ _
  | some bytes =>
    have hle := (exists_writeCount_iff _ bytes).mp ⟨_, hcount⟩
    have hbytes := congrArg (List.take bytes) h.buffer
    rw [List.take_take, List.take_take, Nat.min_eq_left hle] at hbytes
    rw [Option.getD_some, h.written, hbytes, ← List.take_add]
    exact List.take_prefix _ _

/-- The loop ends at a block that is cut short. -/
theorem AtHead.ends_of_short {i : ℕ} {s : State} (h : AtHead env file1 i s)
    (hcopied : Copied env file1 i)
    (hpos : 0 < blockSize env file1 i (offsetAt env file1 i))
    (hshort : writeCount (env.writes i) (blockSize env file1 i (offsetAt env file1 i)) ≠
      some (blockSize env file1 i (offsetAt env file1 i))) :
    copyTurn env file1 s = .leave ⟨-1, writeBlock env s⟩ ∧
      Ends file1 (WritesWhole env 3 file1) ⟨-1, writeBlock env s⟩ := by
  refine ⟨?_, h.written_writeBlock hpos, Or.inr ⟨rfl, fun hwhole => ?_⟩⟩
  · cases hturn : copyTurn env file1 s with
    | again s' =>
      obtain ⟨-, hnext⟩ := h.of_again hcopied hturn
      exact absurd (hnext i (Nat.lt_succ_self i)).2 hshort
    | leave exit =>
      rw [copyTurn, if_pos (h.in_pos_iff.mpr hpos)] at hturn
      simp only at hturn
      split at hturn
      · exact hturn.symm
      · cases hturn
  · exact hshort (hwhole.writes i hcopied hpos)

/-- From the test of the loop on, `main` ends within as many turns as there are bytes left, and one
more. -/
theorem AtHead.ends {i : ℕ} {s : State} (h : AtHead env file1 i s) (hcopied : Copied env file1 i)
    (hopens : env.opensFile1 = true) (hcreates : env.createsFile2 = true) (room : ℕ)
    (hroom : file1.bytes.length ≤ offsetAt env file1 i + room) :
    ∃ exit, loop (copyTurn env file1) (room + 1) s = some exit ∧
      Ends file1 (WritesWhole env 3 file1) exit := by
  induction room generalizing i s with
  | zero =>
    have hsize := (blockSize_le env file1 i (offsetAt env file1 i)).2
    have hzero : blockSize env file1 i (offsetAt env file1 i) = 0 := by omega
    refine ⟨⟨0, s⟩, ?_, h.ends_of_zero hcopied hopens hcreates hzero⟩
    rw [loop, h.leave hzero]
  | succ room ih =>
    rcases Nat.eq_zero_or_pos (blockSize env file1 i (offsetAt env file1 i)) with hzero | hpos
    · refine ⟨⟨0, s⟩, ?_, h.ends_of_zero hcopied hopens hcreates hzero⟩
      rw [loop, h.leave hzero]
    · by_cases hwrite : writeCount (env.writes i) (blockSize env file1 i (offsetAt env file1 i)) =
          some (blockSize env file1 i (offsetAt env file1 i))
      · obtain ⟨s', hturn, hs'⟩ := h.again hpos hwrite
        rw [loop, hturn]
        apply ih hs' (h.of_again hcopied hturn).2
        rw [offsetAt]
        omega
      · obtain ⟨hturn, hends⟩ := h.ends_of_short hcopied hpos hwrite
        exact ⟨_, by rw [loop, hturn], hends⟩

/-- Whatever the system answers, `main` ends within as many turns as the first file has bytes, and
one more. What it has written are bytes from the start of the first file. It returns zero, and
reports the number of bytes written, exactly if the files are open and no block is cut short. -/
theorem main_ends (env : Environment) (argc : Int32) (file1 : File) :
    ∃ exit, main (file1.bytes.length + 1) env argc file1 = some exit ∧
      Ends file1 (WritesWhole env argc file1) exit := by
  have hfails : ¬WritesWhole env argc file1 →
      Ends file1 (WritesWhole env argc file1) ⟨-1, .initial env⟩ := fun hnot =>
    ⟨List.nil_prefix, Or.inr ⟨rfl, hnot⟩⟩
  rw [main]
  split
  · rename_i hargc
    exact ⟨_, rfl, hfails fun h => hargc h.argc⟩
  · rename_i hargc
    obtain rfl : argc = 3 := not_not.mp hargc
    split
    · rename_i hcloses
      exact ⟨_, rfl, hfails fun h => Bool.false_ne_true (hcloses.symm.trans h.opensFile1)⟩
    · rename_i hopens
      split
      · rename_i hexists
        exact ⟨_, rfl, hfails fun h => Bool.false_ne_true (hexists.symm.trans h.createsFile2)⟩
      · rename_i hcreates
        exact (atHead_readBlock rfl rfl rfl rfl rfl).ends
          (fun j hj => absurd hj (Nat.not_lt_zero j)) (eq_true_of_ne_false hopens)
          (eq_true_of_ne_false hcreates) _ (Nat.le_add_left _ _)

end Coursework.Copy
