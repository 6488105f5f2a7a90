import Coursework.Copy.Mycp

/-!
# When a copy that reports success is one

The loop has copied the bytes before the current block. It is left with status zero when a
`read` returns zero, which is the end of the file, and also when a `read` returns minus
one, which may happen anywhere.
-/

namespace Coursework.Copy

open Coursework.Posix
open Coursework.Transition

variable (env : Environment) (file1 : File)

/-- The size of the block that a `read` transfers at a position; zero if it fails. -/
def blockSize (i offset : ℕ) : ℕ :=
  (readCount (env.reads i) bufferSize (file1.bytes.length - offset)).getD 0

/-- The position before each `read`. -/
def offsetAt : ℕ → ℕ
  | 0 => 0
  | i + 1 => offsetAt i + blockSize env file1 i (offsetAt i)

/-- The first blocks were read, and were written whole. -/
def Copied (i : ℕ) : Prop :=
  ∀ j < i, 0 < blockSize env file1 j (offsetAt env file1 j) ∧
    writeCount (env.writes j) (blockSize env file1 j (offsetAt env file1 j)) =
      some (blockSize env file1 j (offsetAt env file1 j))

/-- After blocks that were copied, a `read` fails before the end of the file. -/
def FailsEarly : Prop :=
  ∃ i, Copied env file1 i ∧ env.reads i = .error ∧ offsetAt env file1 i < file1.bytes.length

/-- The second file has the bytes of the first, and their number is reported. -/
def Faithful (exit : Exit) : Prop :=
  exit.final.written = file1.bytes ∧ exit.final.totalBytes.toInt = file1.bytes.length

/-- A state before the test of the loop, in which as many blocks were copied. -/
structure AtHead (i : ℕ) (s : State) : Prop where
  reads : s.reads = i + 1
  writes : s.writes = i
  in_ : s.in_ = returned
    (readCount (env.reads i) bufferSize (file1.bytes.length - offsetAt env file1 i))
  offset : s.offset = offsetAt env file1 (i + 1)
  buffer : s.buffer.take (blockSize env file1 i (offsetAt env file1 i)) =
    (file1.bytes.drop (offsetAt env file1 i)).take (blockSize env file1 i (offsetAt env file1 i))
  written : s.written = file1.bytes.take (offsetAt env file1 i)
  totalBytes : s.totalBytes = Int64.ofNat (offsetAt env file1 i)

/-- A block fits the buffer and the rest of the file. -/
theorem blockSize_le (i offset : ℕ) :
    blockSize env file1 i offset ≤ 1024 ∧
      blockSize env file1 i offset ≤ file1.bytes.length - offset := by
  unfold blockSize
  cases hcount : readCount (env.reads i) bufferSize (file1.bytes.length - offset) with
  | none => exact ⟨Nat.zero_le _, Nat.zero_le _⟩
  | some bytes =>
    obtain ⟨hask, hleft, -⟩ := (exists_readCount_iff bufferSize _ bytes (by decide)).mp
      ⟨_, hcount⟩
    exact ⟨hask, hleft⟩

/-- The position stays in the file. -/
theorem offsetAt_le (i : ℕ) : offsetAt env file1 i ≤ file1.bytes.length := by
  induction i with
  | zero => exact Nat.zero_le _
  | succ i ih =>
    have hblock := (blockSize_le env file1 i (offsetAt env file1 i)).2
    rw [offsetAt]
    omega

variable {env file1}

/-- A block of no bytes is the end of the file or a failure. -/
theorem blockSize_eq_zero {i offset : ℕ} (h : blockSize env file1 i offset = 0) :
    env.reads i = .error ∨ file1.bytes.length ≤ offset := by
  unfold blockSize at h
  cases hcount : readCount (env.reads i) bufferSize (file1.bytes.length - offset) with
  | none =>
    cases hanswer : env.reads i with
    | error => exact Or.inl rfl
    | count bytes =>
      rw [hanswer] at hcount
      cases hcount
  | some bytes =>
    rw [hcount] at h
    obtain ⟨-, -, hzero⟩ := (exists_readCount_iff bufferSize _ bytes (by decide)).mp ⟨_, hcount⟩
    exact Or.inr (Nat.le_of_sub_eq_zero (hzero h))

/-- The next `read` after blocks that were copied. -/
theorem atHead_readBlock {i : ℕ} {s : State} (hreads : s.reads = i) (hwrites : s.writes = i)
    (hoffset : s.offset = offsetAt env file1 i)
    (hwritten : s.written = file1.bytes.take (offsetAt env file1 i))
    (htotal : s.totalBytes = Int64.ofNat (offsetAt env file1 i)) :
    AtHead env file1 i (readBlock env file1 s) := by
  have hblock := (blockSize_le env file1 i (offsetAt env file1 i)).2
  subst hreads
  refine ⟨rfl, hwrites, by simp only [readBlock, hoffset], ?_, ?_, hwritten, htotal⟩
  · simp only [readBlock, hoffset, offsetAt, blockSize]
  · simp only [readBlock, hoffset]
    change List.take (blockSize env file1 s.reads (offsetAt env file1 s.reads))
      (List.take (blockSize env file1 s.reads (offsetAt env file1 s.reads)) _ ++ _) = _
    rw [List.take_append_of_le_length, List.take_take, Nat.min_self]
    rw [List.length_take, List.length_drop]
    omega

/-- The result of a `read` that transferred bytes is their number. -/
theorem AtHead.in_eq {i : ℕ} {s : State} (h : AtHead env file1 i s)
    (hpos : 0 < blockSize env file1 i (offsetAt env file1 i)) :
    s.in_ = returned (some (blockSize env file1 i (offsetAt env file1 i))) := by
  rw [h.in_]
  unfold blockSize at hpos ⊢
  cases hread : readCount (env.reads i) bufferSize
      (file1.bytes.length - offsetAt env file1 i) with
  | none =>
    rw [hread] at hpos
    exact absurd hpos (Nat.lt_irrefl 0)
  | some bytes => rfl

/-- The block is what the `write` is asked for. -/
theorem AtHead.asked {i : ℕ} {s : State} (h : AtHead env file1 i s)
    (hpos : 0 < blockSize env file1 i (offsetAt env file1 i)) :
    writeCount (env.writes s.writes) s.in_.toInt.toNat =
      writeCount (env.writes i) (blockSize env file1 i (offsetAt env file1 i)) := by
  have hle := (blockSize_le env file1 i (offsetAt env file1 i)).1
  rw [h.writes, h.in_eq hpos, toInt_returned_some _ (by omega), Int.toNat_natCast]

/-- The loop goes on with a block exactly if there are bytes. -/
theorem AtHead.in_pos_iff {i : ℕ} {s : State} (h : AtHead env file1 i s) :
    s.in_ > 0 ↔ 0 < blockSize env file1 i (offsetAt env file1 i) := by
  have hle := (blockSize_le env file1 i (offsetAt env file1 i)).1
  unfold blockSize at hle ⊢
  rw [h.in_, returned_pos_iff _ (by omega)]

/-- A block that is written whole is copied, and the loop goes on. -/
theorem AtHead.again {i : ℕ} {s : State} (h : AtHead env file1 i s)
    (hpos : 0 < blockSize env file1 i (offsetAt env file1 i))
    (hwrite : writeCount (env.writes i) (blockSize env file1 i (offsetAt env file1 i)) =
      some (blockSize env file1 i (offsetAt env file1 i))) :
    ∃ s', copyTurn env file1 s = .again s' ∧ AtHead env file1 (i + 1) s' := by
  have hout : writeBlock env s = { s with
      out := s.in_
      written := file1.bytes.take (offsetAt env file1 (i + 1))
      writes := i + 1 } := by
    rw [writeBlock, h.asked hpos, hwrite]
    simp only [Option.getD_some, h.buffer, h.written, h.writes, ← h.in_eq hpos, offsetAt,
      List.take_add]
  refine ⟨readBlock env file1 { writeBlock env s with
    totalBytes := (writeBlock env s).totalBytes + (writeBlock env s).out }, ?_, ?_⟩
  · rw [copyTurn, if_pos (h.in_pos_iff.mpr hpos), if_neg]
    rw [hout]
    exact fun hne => hne rfl
  · rw [hout]
    refine atHead_readBlock h.reads rfl h.offset rfl ?_
    change s.totalBytes + s.in_ = _
    rw [h.totalBytes, h.in_eq hpos, offsetAt, Int64.ofNat_add]
    rfl

/-- A loop that goes on has copied another block. -/
theorem AtHead.of_again {i : ℕ} {s s' : State} (h : AtHead env file1 i s)
    (hcopied : Copied env file1 i) (hagain : copyTurn env file1 s = .again s') :
    AtHead env file1 (i + 1) s' ∧ Copied env file1 (i + 1) := by
  have hle := (blockSize_le env file1 i (offsetAt env file1 i)).1
  obtain ⟨hpos, hwrite⟩ : 0 < blockSize env file1 i (offsetAt env file1 i) ∧
      writeCount (env.writes i) (blockSize env file1 i (offsetAt env file1 i)) =
        some (blockSize env file1 i (offsetAt env file1 i)) := by
    rw [copyTurn] at hagain
    split at hagain
    · rename_i hin
      have hpos := h.in_pos_iff.mp hin
      simp only at hagain
      split at hagain
      · cases hagain
      · rename_i hwhole
        have heq : s.in_ = returned (writeCount (env.writes s.writes) s.in_.toInt.toNat) :=
          not_not.mp hwhole
        rw [h.asked hpos, h.in_eq hpos] at heq
        refine ⟨hpos, (returned_inj ?_ ?_ heq).symm⟩
        · rw [Option.getD_some]
          omega
        · cases hcount : writeCount (env.writes i)
              (blockSize env file1 i (offsetAt env file1 i)) with
          | none => decide
          | some bytes =>
            have hbytes := (exists_writeCount_iff _ bytes).mp ⟨_, hcount⟩
            rw [Option.getD_some]
            omega
    · cases hagain
  obtain ⟨s₁, hturn, hs₁⟩ := h.again hpos hwrite
  obtain rfl := Turn.again.inj (hturn.symm.trans hagain)
  refine ⟨hs₁, fun j hj => ?_⟩
  rcases Nat.lt_succ_iff_lt_or_eq.mp hj with hlt | rfl
  · exact hcopied j hlt
  · exact ⟨hpos, hwrite⟩

/-- A `read` of no bytes ends the loop with status zero. -/
theorem AtHead.leave {i : ℕ} {s : State} (h : AtHead env file1 i s)
    (hzero : blockSize env file1 i (offsetAt env file1 i) = 0) :
    copyTurn env file1 s = .leave ⟨0, s⟩ := by
  rw [copyTurn, if_neg]
  rw [h.in_pos_iff, hzero]
  exact Nat.lt_irrefl 0

/-- A loop that is left with status zero had come to a `read` of no bytes. -/
theorem AtHead.of_leave {i : ℕ} {s : State} {exit : Exit} (h : AtHead env file1 i s)
    (hleave : copyTurn env file1 s = .leave exit) (hstatus : exit.status = 0) :
    blockSize env file1 i (offsetAt env file1 i) = 0 ∧ exit.final = s := by
  rw [copyTurn] at hleave
  split at hleave
  · simp only at hleave
    split at hleave
    · obtain rfl := Turn.leave.inj hleave
      exact absurd hstatus (show (-1 : Int32) ≠ 0 by decide)
    · cases hleave
  · rename_i hnot
    obtain rfl := Turn.leave.inj hleave
    rw [h.in_pos_iff] at hnot
    exact ⟨Nat.eq_zero_of_not_pos hnot, rfl⟩

/-- The bytes before the end of the file, and their number. -/
theorem AtHead.faithful_iff {i : ℕ} {s : State} (h : AtHead env file1 i s) (status : Int32) :
    Faithful file1 ⟨status, s⟩ ↔ offsetAt env file1 i = file1.bytes.length := by
  have hle := offsetAt_le env file1 i
  have hsize := file1.size
  rw [Faithful, h.written, h.totalBytes, Int64.toInt_ofNat_of_lt (by omega)]
  constructor
  · rintro ⟨-, htotal⟩
    exact_mod_cast htotal
  · intro hall
    rw [hall, List.take_length]
    exact ⟨rfl, rfl⟩

/-- The loop comes to the `read` after any number of blocks that can be copied. -/
theorem exists_atHead (i : ℕ) (hcopied : Copied env file1 i) :
    ∃ s, AtHead env file1 i s ∧ ∀ exit, Returns (copyTurn env file1) s exit →
      Returns (copyTurn env file1) (readBlock env file1 (.initial env)) exit := by
  induction i with
  | zero => exact ⟨_, atHead_readBlock rfl rfl rfl rfl rfl, fun _ h => h⟩
  | succ i ih =>
    obtain ⟨s, hs, hreturns⟩ := ih fun j hj => hcopied j (Nat.lt_succ_of_lt hj)
    obtain ⟨hpos, hwrite⟩ := hcopied i (Nat.lt_succ_self i)
    obtain ⟨s', hturn, hs'⟩ := hs.again hpos hwrite
    exact ⟨s', hs', fun exit hexit => hreturns exit (returns_of_again hturn hexit)⟩

/-- The loop only reports success for faithful copies exactly if no `read` fails early. -/
theorem returns_faithful_iff (env : Environment) (file1 : File) :
    (∀ exit, Returns (copyTurn env file1) (readBlock env file1 (.initial env)) exit →
        exit.status = 0 → Faithful file1 exit) ↔ ¬FailsEarly env file1 := by
  constructor
  · rintro hfaithful ⟨i, hcopied, herror, hearly⟩
    obtain ⟨s, hs, hreturns⟩ := exists_atHead i hcopied
    have hzero : blockSize env file1 i (offsetAt env file1 i) = 0 := by
      rw [blockSize, herror]
      rfl
    have hall := (hs.faithful_iff 0).mp
      (hfaithful ⟨0, s⟩ (hreturns _ (returns_of_leave (hs.leave hzero))) rfl)
    omega
  · intro hnever exit hexit
    refine hexit.invariant (fun s => ∃ i, AtHead env file1 i s ∧ Copied env file1 i)
      (fun exit => exit.status = 0 → Faithful file1 exit) ?_ ?_ ?_
    · exact ⟨0, atHead_readBlock rfl rfl rfl rfl rfl, fun j hj => absurd hj (Nat.not_lt_zero j)⟩
    · rintro s s' ⟨i, hs, hcopied⟩ hagain
      exact ⟨i + 1, hs.of_again hcopied hagain⟩
    · rintro s exit ⟨i, hs, hcopied⟩ hleave hstatus
      obtain ⟨hzero, hfinal⟩ := hs.of_leave hleave hstatus
      have hle := offsetAt_le env file1 i
      obtain ⟨status, final⟩ := exit
      obtain rfl : final = s := hfinal
      refine (hs.faithful_iff status).mpr (Nat.le_antisymm hle ?_)
      rcases blockSize_eq_zero hzero with herror | hend
      · by_contra hearly
        exact hnever ⟨i, hcopied, herror, Nat.lt_of_not_le hearly⟩
      · exact hend

/-- With both files open, `main` returns what its loop is left with. -/
theorem main_of_open {turns : ℕ} (env : Environment) (file1 : File)
    (hopens : env.opensFile1 = true) (hcreates : env.createsFile2 = true) :
    main turns env 3 file1 =
      loop (copyTurn env file1) turns (readBlock env file1 (.initial env)) := by
  rw [main, if_neg (not_not.mpr rfl), if_neg (by rw [hopens]; decide),
    if_neg (by rw [hcreates]; decide)]

/-- `main` returns zero only with both files open. -/
theorem open_of_main {turns : ℕ} {env : Environment} {argc : Int32} {file1 : File} {exit : Exit}
    (hmain : main turns env argc file1 = some exit) (hstatus : exit.status = 0) :
    argc = 3 ∧ env.opensFile1 = true ∧ env.createsFile2 = true := by
  have hfails : ∀ s, some (Exit.mk (-1) s) ≠ some exit := by
    rintro s heq
    obtain rfl := Option.some.inj heq
    exact absurd hstatus (show (-1 : Int32) ≠ 0 by decide)
  rw [main] at hmain
  split at hmain
  · exact absurd hmain (hfails _)
  · rename_i hargc
    split at hmain
    · exact absurd hmain (hfails _)
    · rename_i hopens
      split at hmain
      · exact absurd hmain (hfails _)
      · rename_i hcreates
        exact ⟨not_not.mp hargc, eq_true_of_ne_false hopens, eq_true_of_ne_false hcreates⟩

/-- A successful `main` has copied the file, whatever the calls answer, unless a `read` fails before
the end of the file. -/
theorem main_faithful_iff (env : Environment) (argc : Int32) (file1 : File) :
    (∀ turns exit, main turns env argc file1 = some exit → exit.status = 0 →
        Faithful file1 exit) ↔
      ¬(argc = 3 ∧ env.opensFile1 = true ∧ env.createsFile2 = true ∧ FailsEarly env file1) := by
  constructor
  · rintro hfaithful ⟨rfl, hopens, hcreates, hearly⟩
    refine (returns_faithful_iff env file1).mp ?_ hearly
    rintro exit ⟨turns, hturns⟩
    exact hfaithful turns exit ((main_of_open env file1 hopens hcreates).trans hturns)
  · intro hnever turns exit hmain hstatus
    obtain ⟨rfl, hopens, hcreates⟩ := open_of_main hmain hstatus
    rw [main_of_open env file1 hopens hcreates] at hmain
    refine (returns_faithful_iff env file1).mpr ?_ exit ⟨turns, hmain⟩ hstatus
    exact fun hearly => hnever ⟨rfl, hopens, hcreates, hearly⟩

/-- A file of one byte, whose first `read` fails: nothing is copied, and `main` returns zero. -/
theorem not_faithful_of_failed_read :
    ∃ exit,
      main 1 ⟨true, true, [], fun _ => .error, fun _ => .count 1⟩ 3 ⟨[65], by decide⟩ = some exit ∧
      exit.status = 0 ∧ ¬Faithful ⟨[65], by decide⟩ exit := by
  refine ⟨⟨0, ⟨[], -1, 0, 0, 0, [], 1, 0⟩⟩, rfl, rfl, ?_⟩
  rintro ⟨hwritten, -⟩
  cases hwritten

/-- The loop ends: every block that is copied leaves less of the file. -/
theorem returns_copyTurn (env : Environment) (file1 : File) :
    ∃ exit, Returns (copyTurn env file1) (readBlock env file1 (.initial env)) exit := by
  refine returns_of_measure (fun s => ∃ i, AtHead env file1 i s ∧ Copied env file1 i)
    (fun s => if s.in_ > 0 then file1.bytes.length + 1 - s.offset else 0) ?_ _
    ⟨0, atHead_readBlock rfl rfl rfl rfl rfl, fun j hj => absurd hj (Nat.not_lt_zero j)⟩
  rintro s s' ⟨i, hs, hcopied⟩ hagain
  obtain ⟨hs', hcopied'⟩ := hs.of_again hcopied hagain
  refine ⟨⟨i + 1, hs', hcopied'⟩, ?_⟩
  have hle := offsetAt_le env file1 (i + 1)
  have hin := hs.in_pos_iff.mpr (hcopied' i (Nat.lt_succ_self i)).1
  simp only [if_pos hin, hs.offset, hs'.offset]
  split
  · rename_i hin'
    have hpos := hs'.in_pos_iff.mp hin'
    have hnext : offsetAt env file1 (i + 1 + 1) = offsetAt env file1 (i + 1) +
      blockSize env file1 (i + 1) (offsetAt env file1 (i + 1)) := rfl
    omega
  · omega

/-- `main` returns, whatever the calls answer. -/
theorem main_returns (env : Environment) (argc : Int32) (file1 : File) :
    ∃ turns exit, main turns env argc file1 = some exit := by
  by_cases hopen : argc = 3 ∧ env.opensFile1 = true ∧ env.createsFile2 = true
  · obtain ⟨rfl, hopens, hcreates⟩ := hopen
    obtain ⟨exit, turns, hturns⟩ := returns_copyTurn env file1
    exact ⟨turns, exit, (main_of_open env file1 hopens hcreates).trans hturns⟩
  · refine ⟨0, ⟨-1, .initial env⟩, ?_⟩
    rw [main]
    split
    · rfl
    · split
      · rfl
      · rename_i hargc hopens
        refine if_pos ?_
        by_contra hcreates
        exact hopen ⟨not_not.mp hargc, eq_true_of_ne_false hopens, eq_true_of_ne_false hcreates⟩

end Coursework.Copy
