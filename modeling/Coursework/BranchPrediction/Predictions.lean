import Coursework.BranchPrediction.NullTargets
import Coursework.Prediction.Table

/-!
# Predictions as functions of the branch history

A counter is the saturating fold of the outcomes of its branches, and a target is the
latest taken branch of its index. The counted mispredictions, accesses and misses follow,
as numbers modulo `2 ^ 32`, since the counters are `int`s.
-/

namespace Coursework.BranchPrediction.Sys2

open Coursework.Java
open Coursework.Prediction

/-- A branch: its instruction address, and whether it is taken. -/
structure Branch where
  pc : ℕ
  taken : Bool
  deriving DecidableEq

/-- What a line stands for: a branch, or nothing. -/
def branchOf (line : String) : Option Branch :=
  match parseRecord line with
  | .ok record =>
    if record.tnNotBranch = "-" then none
    else some ⟨record.instructionAddress.toInt.toNat, record.tnNotBranch = "T"⟩
  | .error _ => none

/-- The branches of a trace, in order. -/
def branches (trace : List String) : List Branch := trace.filterMap branchOf

/-- The counter of an index: it starts at 1, and counts the outcomes of the branches of the index
up and down between 0 and 3. -/
def counterAt (pbSize : ℕ) (earlier : List Branch) (index : ℕ) : ℕ :=
  entry (fun b => b.pc % pbSize) (fun c b => saturate c b.taken) 1 earlier index

/-- The most recent taken branch of an index. -/
def latestTaken (btbSize : ℕ) (earlier : List Branch) (index : ℕ) : Option Branch :=
  latest (fun b => b.pc % btbSize) Branch.taken earlier index

/-- A branch counts its outcome in the counter of its index. -/
theorem counterAt_append_singleton (pbSize : ℕ) (earlier : List Branch) (b : Branch) (index : ℕ) :
    counterAt pbSize (earlier ++ [b]) index =
      if b.pc % pbSize = index then saturate (counterAt pbSize earlier index) b.taken
      else counterAt pbSize earlier index :=
  entry_append_singleton _ _ _ _ _ _

/-- A taken branch becomes the most recent one of its index. -/
theorem latestTaken_append_singleton (btbSize : ℕ) (earlier : List Branch) (b : Branch)
    (index : ℕ) :
    latestTaken btbSize (earlier ++ [b]) index =
      if b.taken = true ∧ b.pc % btbSize = index then some b
      else latestTaken btbSize earlier index :=
  latest_append_singleton _ _ _ _ _

/-- A branch is predicted to be taken. -/
def predictedTaken (pbSize : ℕ) (earlier : List Branch) (b : Branch) : Bool :=
  2 ≤ counterAt pbSize earlier (b.pc % pbSize)

/-- The number of branches whose outcome differs from the prediction. -/
def mispredictionCount (pbSize : ℕ) (all : List Branch) : ℕ :=
  countAfter (fun earlier b => predictedTaken pbSize earlier b != b.taken) all

/-- The number of branches that are predicted to be taken. -/
def accessCount (pbSize : ℕ) (all : List Branch) : ℕ :=
  countAfter (fun earlier b => predictedTaken pbSize earlier b) all

/-- The number of branches that are predicted to be taken and follow another taken branch. -/
def missCount (pbSize btbSize : ℕ) (all : List Branch) : ℕ :=
  countAfter (fun earlier b => predictedTaken pbSize earlier b ∧
    (latestTaken btbSize earlier (b.pc % btbSize)).any fun last => last.pc ≠ b.pc) all

/-- A state shows a history of branches, the most recent first. -/
structure Represents (n m : ℕ) (s : State (2 ^ n) (2 ^ m)) (past : List Branch) : Prop where
  pbBuffer : ∀ i, s.pbBuffer i = Int32.ofNat (counterAt (2 ^ n) past.reverse i)
  btbBuffer : ∀ j, s.btbBuffer j =
    (latestTaken (2 ^ m) past.reverse j).map fun b => ⟨hexText (b.pc / 2 ^ m), 1⟩
  branches : s.counters.branches = Int32.ofNat past.length
  mispredictions :
    s.counters.mispredictions = Int32.ofNat (mispredictionCount (2 ^ n) past.reverse)
  access : s.counters.access = Int32.ofNat (accessCount (2 ^ n) past.reverse)
  lookUps : s.counters.hit + s.counters.miss = s.counters.access
  miss : s.counters.miss = Int32.ofNat (missCount (2 ^ n) (2 ^ m) past.reverse)

/-- Before the first line the history is empty. -/
theorem represents_initial (n m : ℕ) : Represents n m (State.initial (2 ^ n) (2 ^ m)) [] where
  pbBuffer _ := rfl
  btbBuffer _ := rfl
  branches := rfl
  mispredictions := rfl
  access := rfl
  lookUps := rfl
  miss := rfl

/-- A counter stays between 0 and 3. -/
theorem counterAt_le (pbSize : ℕ) (earlier : List Branch) (index : ℕ) :
    counterAt pbSize earlier index ≤ 3 := by
  apply entry_induction _ _ _ (fun c => c ≤ 3) (by decide)
  intro c b hc
  unfold saturate
  split
  · exact Nat.min_le_left _ _
  · omega

/-- The text of an outcome. -/
def outcomeText (taken : Bool) : String := if taken then "T" else "N"

/-- A counter from 2 on predicts taken branches. -/
theorem takenPrediction_ofNat : ∀ c ≤ 3, takenPrediction (Int32.ofNat c) = decide (2 ≤ c) := by
  decide

/-- The other counters predict branches that are not taken. -/
theorem notTakenPrediction_ofNat :
    ∀ c ≤ 3, notTakenPrediction (Int32.ofNat c) = !decide (2 ≤ c) := by
  decide

/-- The next state of a counter. -/
theorem pbNextState_ofNat : ∀ c ≤ 3, ∀ taken,
    pbNextState (outcomeText taken) (Int32.ofNat c) = Int32.ofNat (saturate c taken) := by
  decide

/-- A misprediction is counted when prediction and outcome differ. -/
theorem countOutcome_ofNat (taken : Bool) (c : ℕ) (hc : c ≤ 3) (counters : Counters) :
    countOutcome (outcomeText taken) (Int32.ofNat c) counters =
      { counters with
        mispredictions :=
          counters.mispredictions + if (decide (2 ≤ c) != taken) then 1 else 0 } := by
  simp only [countOutcome, takenPrediction_ofNat c hc, notTakenPrediction_ofNat c hc]
  cases taken <;> cases decide (2 ≤ c) <;> simp [outcomeText]

/-- Counting the direction leaves the other counters alone. -/
theorem countDirection_frame (tnNotBranch : String) (distance : Int64) (counters : Counters) :
    let counted := countDirection tnNotBranch distance counters
    counted.branches = counters.branches ∧ counted.mispredictions = counters.mispredictions ∧
      counted.hit = counters.hit ∧ counted.access = counters.access ∧
      counted.miss = counters.miss := by
  unfold countDirection
  split_ifs <;> exact ⟨rfl, rfl, rfl, rfl, rfl⟩

/-- The counters after a branch, from those after its look-up. -/
theorem afterBranch_counters {pbSize btbSize : ℕ} (s : State pbSize btbSize) (record : Record)
    (decoded : DecodedBranch) (pbEntry : Fin pbSize) (looked : Counters)
    (targets : Fin btbSize → Option Target) (taken : Bool) (c : ℕ) (hc : c ≤ 3)
    (hop : record.tnNotBranch = outcomeText taken) (hval : s.pbBuffer pbEntry = Int32.ofNat c) :
    let counters := (s.afterBranch record decoded pbEntry looked targets).counters
    counters.branches = looked.branches ∧
      counters.mispredictions =
        looked.mispredictions + (if (decide (2 ≤ c) != taken) then 1 else 0) ∧
      counters.access = looked.hit + looked.miss ∧ counters.hit = looked.hit ∧
      counters.miss = looked.miss := by
  obtain ⟨hbranches, hmispredictions, hhit, haccess, hmiss⟩ := countDirection_frame
    record.tnNotBranch (record.targetAddressTakenBranch - record.instructionAddress)
    (countOutcome record.tnNotBranch (s.pbBuffer pbEntry)
      { looked with access := looked.hit + looked.miss })
  simp only [State.afterBranch]
  rw [hbranches, hmispredictions, hhit, haccess, hmiss, hop, hval, countOutcome_ofNat taken c hc]
  exact ⟨rfl, rfl, rfl, rfl, rfl⟩

/-- A count grows by one as an `int`. -/
theorem ofNat_add_ite (count : ℕ) (p : Prop) [Decidable p] :
    Int32.ofNat (count + if p then 1 else 0) = Int32.ofNat count + if p then 1 else 0 := by
  rw [Int32.ofNat_add]
  split <;> rfl

/-- A branch whose look-up was counted right adds to the history that the state shows. -/
theorem afterBranch_represents (n m : ℕ) (s : State (2 ^ n) (2 ^ m)) (past : List Branch)
    (h : Represents n m s past) (record : Record) (b : Branch)
    (hop : record.tnNotBranch = outcomeText b.taken) (pbEntry : Fin (2 ^ n))
    (hpbEntry : pbEntry.val = b.pc % 2 ^ n) (btbEntry : Fin (2 ^ m))
    (hbtbEntry : btbEntry.val = b.pc % 2 ^ m) (looked : Counters)
    (hbranches : looked.branches = s.counters.branches + 1)
    (hmispredictions : looked.mispredictions = s.counters.mispredictions)
    (haccess : looked.hit + looked.miss =
      Int32.ofNat (accessCount (2 ^ n) (past.reverse ++ [b])))
    (hmiss : looked.miss = Int32.ofNat (missCount (2 ^ n) (2 ^ m) (past.reverse ++ [b]))) :
    Represents n m (s.afterBranch record (decodedBranch n m b.pc) pbEntry looked
      (updatedTargets s.btbBuffer record.tnNotBranch btbEntry
        (decodedBranch n m b.pc).btbCurBranchTag)) (b :: past) := by
  have hle := counterAt_le (2 ^ n) past.reverse (b.pc % 2 ^ n)
  have hval : s.pbBuffer pbEntry = Int32.ofNat (counterAt (2 ^ n) past.reverse (b.pc % 2 ^ n)) := by
    rw [h.pbBuffer, hpbEntry]
  obtain ⟨hbranches', hmispredictions', haccess', hhit', hmiss'⟩ := afterBranch_counters s record
    (decodedBranch n m b.pc) pbEntry looked (updatedTargets s.btbBuffer record.tnNotBranch btbEntry
      (decodedBranch n m b.pc).btbCurBranchTag) b.taken _ hle hop hval
  constructor
  · intro i
    have hbranch : outcomeText b.taken = "T" ∨ outcomeText b.taken = "N" := by
      cases b.taken <;> simp [outcomeText]
    simp only [State.afterBranch, hop, List.reverse_cons, counterAt_append_singleton]
    by_cases hi : i = pbEntry
    · subst hi
      rw [if_pos ⟨rfl, hbranch⟩, if_pos hpbEntry.symm, hval, pbNextState_ofNat _ hle, hpbEntry]
    · have hne : b.pc % 2 ^ n ≠ i.val := fun heq => hi (Fin.ext (heq.symm.trans hpbEntry.symm))
      rw [if_neg fun hboth => hi hboth.1, if_neg hne, h.pbBuffer]
  · intro j
    simp only [State.afterBranch, updatedTargets, hop, List.reverse_cons,
      latestTaken_append_singleton, decodedBranch]
    cases htaken : b.taken with
    | false => simpa [outcomeText] using h.btbBuffer j
    | true =>
      by_cases hj : j = btbEntry
      · subst hj
        simp [outcomeText, setTarget, hbtbEntry]
      · have hne : b.pc % 2 ^ m ≠ j.val := fun heq => hj (Fin.ext (heq.symm.trans hbtbEntry.symm))
        simpa [outcomeText, setTarget, hj, hne] using h.btbBuffer j
  · rw [hbranches', hbranches, h.branches, List.length_cons]
    exact (Int32.ofNat_add _ 1).symm
  · rw [hmispredictions', hmispredictions, h.mispredictions, List.reverse_cons,
      mispredictionCount, mispredictionCount, countAfter_append_singleton, ofNat_add_ite]
    rfl
  · rw [haccess', haccess, List.reverse_cons]
  · rw [hhit', hmiss', haccess']
  · rw [hmiss', hmiss, List.reverse_cons]

/-- A branch that is predicted to be taken follows a taken branch of its target index. -/
theorem exists_latestTaken (n m : ℕ) (hmn : m ≤ n) (earlier : List Branch) (b : Branch)
    (h : 2 ≤ counterAt (2 ^ n) earlier (b.pc % 2 ^ n)) :
    ∃ last, latestTaken (2 ^ m) earlier (b.pc % 2 ^ m) = some last ∧
      last.pc % 2 ^ m = b.pc % 2 ^ m := by
  obtain ⟨a, ha, hkey, htaken⟩ := exists_up_of_entry_saturate _ _ _ _ h
  have hdvd : 2 ^ m ∣ 2 ^ n := Nat.pow_dvd_pow 2 hmn
  have hcoarse : a.pc % 2 ^ m = b.pc % 2 ^ m := by
    rw [← Nat.mod_mod_of_dvd a.pc hdvd, hkey, Nat.mod_mod_of_dvd b.pc hdvd]
  obtain ⟨last, hlast⟩ := Option.ne_none_iff_exists'.mp
    (latest_ne_none (fun b => b.pc % 2 ^ m) Branch.taken earlier a ha htaken)
  rw [hcoarse] at hlast
  exact ⟨last, hlast, (latest_eq_some _ _ _ _ _ hlast).2.2⟩

/-- Addresses with the same residue have the same tag only when they are equal. -/
theorem hexText_div_eq_iff (size p q : ℕ) (h : p % size = q % size) :
    hexText (p / size) = hexText (q / size) ↔ p = q := by
  constructor
  · intro htag
    rw [← Nat.div_add_mod p size, ← Nat.div_add_mod q size, h, hexText_injective htag]
  · rintro rfl
    rfl

/-- What a look-up counts: a hit or a miss, by the tag of a valid target. -/
theorem lookedUp_counters (tag tag' : String) (counters : Counters) :
    let looked := lookedUp ⟨tag, 1⟩ tag' counters
    looked.branches = counters.branches ∧ looked.mispredictions = counters.mispredictions ∧
      looked.hit + looked.miss = counters.hit + counters.miss + 1 ∧
      looked.miss = counters.miss + if tag = tag' then 0 else 1 := by
  by_cases htag : tag = tag'
  · simp only [lookedUp, htag, and_true, if_true, Int32.add_zero, true_and]
    rw [Int32.add_assoc, Int32.add_comm 1, Int32.add_assoc]
  · simp only [lookedUp, htag, and_false, if_false, true_and, and_true]
    rw [Int32.add_assoc]

/-- A branch adds to the history that the state shows. -/
theorem branch_represents (n m : ℕ) (hm31 : m < 31) (hmn : m ≤ n) (s : State (2 ^ n) (2 ^ m))
    (past : List Branch) (h : Represents n m s past) (record : Record) (b : Branch)
    (hop : record.tnNotBranch = outcomeText b.taken) :
    ∃ s', branch s record (decodedBranch n m b.pc)
        ⟨b.pc % 2 ^ n, Nat.mod_lt b.pc (Nat.two_pow_pos n)⟩ = .ok s' ∧
      Represents n m s' (b :: past) := by
  have hle := counterAt_le (2 ^ n) past.reverse (b.pc % 2 ^ n)
  have hindex : arrayIndex (2 ^ m) (decodedBranch n m b.pc).btbIndex =
      .ok ⟨b.pc % 2 ^ m, Nat.mod_lt b.pc (by positivity)⟩ :=
    arrayIndex_ofNat_mod (2 ^ m) b.pc (by positivity) (Nat.pow_lt_pow_right (by decide) hm31)
  rw [branch_eq _ _ _ _ _ hindex, h.pbBuffer, takenPrediction_ofNat _ hle]
  by_cases hpredicted : 2 ≤ counterAt (2 ^ n) past.reverse (b.pc % 2 ^ n)
  · obtain ⟨last, hlast, hresidue⟩ := exists_latestTaken n m hmn past.reverse b hpredicted
    have haccess : accessCount (2 ^ n) (past.reverse ++ [b]) =
        accessCount (2 ^ n) past.reverse + 1 := by
      simp [accessCount, countAfter_append_singleton, predictedTaken, hpredicted]
    have hmiss : missCount (2 ^ n) (2 ^ m) (past.reverse ++ [b]) =
        missCount (2 ^ n) (2 ^ m) past.reverse + if last.pc = b.pc then 0 else 1 := by
      simp [missCount, countAfter_append_singleton, predictedTaken, hpredicted, hlast]
    obtain ⟨hbranches, hmispredictions, hsum, hmissed⟩ := lookedUp_counters
      (hexText (last.pc / 2 ^ m)) (hexText (b.pc / 2 ^ m))
      { s.counters with branches := s.counters.branches + 1 }
    rw [if_pos (by simpa using hpredicted), h.btbBuffer, hlast]
    refine ⟨_, rfl, afterBranch_represents n m s past h record b hop _ rfl _ rfl _ hbranches
      hmispredictions ?_ ?_⟩
    · refine hsum.trans ?_
      simp only [h.lookUps, h.access, haccess]
      exact (Int32.ofNat_add _ 1).symm
    · refine hmissed.trans ?_
      simp only [hexText_div_eq_iff _ _ _ hresidue, h.miss, hmiss]
      split <;> simp [Int32.ofNat_add]
  · have haccess : accessCount (2 ^ n) (past.reverse ++ [b]) =
        accessCount (2 ^ n) past.reverse := by
      simp [accessCount, countAfter_append_singleton, predictedTaken, hpredicted]
    have hmiss : missCount (2 ^ n) (2 ^ m) (past.reverse ++ [b]) =
        missCount (2 ^ n) (2 ^ m) past.reverse := by
      simp [missCount, countAfter_append_singleton, predictedTaken, hpredicted]
    rw [if_neg (by simpa using hpredicted)]
    refine ⟨_, rfl, afterBranch_represents n m s past h record b hop _ rfl _ rfl _ rfl rfl ?_ ?_⟩
    · rw [haccess, ← h.access]
      exact h.lookUps
    · rw [hmiss]
      exact h.miss

/-- A decodable line adds to the history what it stands for. -/
theorem step_represents (n m : ℕ) (hn31 : n < 31) (hm : 1 ≤ m) (hmn : m ≤ n)
    (pbOffsetLength btbOffsetLength : Int32) (hpb : pbOffsetLength.toInt = n)
    (hbtb : btbOffsetLength.toInt = m) (s : State (2 ^ n) (2 ^ m)) (past : List Branch)
    (h : Represents n m s past) (line : String) (hline : DecodableLine (2 ^ n) (2 ^ m) line) :
    ∃ s', step pbOffsetLength btbOffsetLength s line = .ok s' ∧
      Represents n m s' ((branchOf line).toList ++ past) := by
  obtain ⟨record, hrecord, hop, hpbSize, hbtbSize, htag⟩ := hline
  have hpos : (0 : ℤ) < 2 ^ n := by positivity
  push_cast at hpbSize hbtbSize htag
  obtain ⟨pc, hpc⟩ := Int.eq_ofNat_of_zero_le (hpos.le.trans hpbSize)
  rw [hpc] at hpbSize hbtbSize htag
  have hstep := step_of_decodable n m (by omega) hn31 hm (by omega) pbOffsetLength
    btbOffsetLength hpb hbtb s line record hrecord pc hpc (by exact_mod_cast hpbSize)
    (by exact_mod_cast hbtbSize) (by exact_mod_cast htag)
  by_cases hskip : record.tnNotBranch = "-"
  · refine ⟨s, hstep.trans (if_pos hskip), ?_⟩
    simpa [branchOf, hrecord, hskip] using h
  · have houtcome : record.tnNotBranch = outcomeText (record.tnNotBranch = "T") := by
      rcases hop with hop | hop | hop
      · rw [hop]
        rfl
      · rw [hop]
        rfl
      · exact absurd hop hskip
    obtain ⟨s', hs', hrep⟩ := branch_represents n m (by omega) hmn s past h record
      ⟨pc, record.tnNotBranch = "T"⟩ houtcome
    refine ⟨s', (hstep.trans (if_neg hskip)).trans hs', ?_⟩
    have hbranch : branchOf line = some ⟨pc, record.tnNotBranch = "T"⟩ := by
      simp only [branchOf, hrecord, if_neg hskip, hpc, Int.toNat_natCast]
    rw [hbranch]
    exact hrep

/-- A decodable trace is simulated to its end when there are at most as many targets as counters,
and the final counters are those of its branches. -/
theorem simulate_represents (pbBufferSize btbBufferSize : Int32) (n m : ℕ)
    (hsizes : BufferSizes pbBufferSize btbBufferSize n m) (hmn : m ≤ n) (trace : List String)
    (hdecodable : ∀ line ∈ trace, DecodableLine (2 ^ n) (2 ^ m) line) (verbose : Bool) :
    ∃ run, simulate (.ofLines trace) pbBufferSize btbBufferSize verbose = .ok run ∧
      run.final.counters.mispredictions =
        Int32.ofNat (mispredictionCount (2 ^ n) (branches trace)) ∧
      run.final.counters.access = Int32.ofNat (accessCount (2 ^ n) (branches trace)) ∧
      run.final.counters.miss = Int32.ofNat (missCount (2 ^ n) (2 ^ m) (branches trace)) := by
  obtain ⟨pbOffsetLength, btbOffsetLength, hpb, hbtb, hsetUp⟩ := hsizes.setUp_eq
  obtain ⟨s, hrun, hrep⟩ := readLines_represents (step pbOffsetLength btbOffsetLength) branchOf
    (Represents n m) (DecodableLine (2 ^ n) (2 ^ m)) (branches trace).length
    (fun s past line hline _ h => step_represents n m (exponent_lt _ _ hsizes.pb) hsizes.btbIndex
      hmn pbOffsetLength btbOffsetLength hpb hbtb s past h line hline)
    (State.initial (2 ^ n) (2 ^ m)) [] 0 trace hdecodable (by simp [branches])
    (represents_initial n m)
  have hall : ((trace.filterMap branchOf).reverse ++ []).reverse = branches trace := by
    rw [List.append_nil, List.reverse_reverse, branches]
  have hmispredictions := hrep.mispredictions
  have haccess := hrep.access
  have hmiss := hrep.miss
  rw [hall] at hmispredictions haccess hmiss
  simp only [simulate, hsetUp, readLoop, InputStream.ofLines, hrun, Bool.false_eq_true, if_false,
    Except.ok.injEq, exists_eq_left']
  exact ⟨hmispredictions, haccess, hmiss⟩

/-- The reported mispredictions, accesses and misses are those of the branch history, as `int`s;
they are the exact numbers when fewer than `2 ^ 31` branches were read. -/
theorem simulate_counts (pbBufferSize btbBufferSize : Int32) (n m : ℕ)
    (hsizes : BufferSizes pbBufferSize btbBufferSize n m) (hle : btbBufferSize ≤ pbBufferSize)
    (trace : List String) (hdecodable : ∀ line ∈ trace, DecodableLine (2 ^ n) (2 ^ m) line)
    (verbose : Bool) :
    ∃ run, simulate (.ofLines trace) pbBufferSize btbBufferSize verbose = .ok run ∧
      run.report.mispredictions = Int32.ofNat (mispredictionCount (2 ^ n) (branches trace)) ∧
      run.final.counters.access = Int32.ofNat (accessCount (2 ^ n) (branches trace)) ∧
      run.report.miss = Int32.ofNat (missCount (2 ^ n) (2 ^ m) (branches trace)) ∧
      ((branches trace).length < 2 ^ 31 →
        run.report.mispredictions.toInt = mispredictionCount (2 ^ n) (branches trace) ∧
          run.final.counters.access.toInt = accessCount (2 ^ n) (branches trace) ∧
          run.report.miss.toInt = missCount (2 ^ n) (2 ^ m) (branches trace)) := by
  have hmn : m ≤ n := by
    by_contra hlt
    have hboth := Int32.lt_iff_toInt_lt.mp (hsizes.lt_iff.mpr (Nat.lt_of_not_le hlt))
    rw [Int32.le_iff_toInt_le] at hle
    omega
  obtain ⟨run, hrun, hmispredictions, haccess, hmiss⟩ := simulate_represents pbBufferSize
    btbBufferSize n m hsizes hmn trace hdecodable verbose
  refine ⟨run, hrun, hmispredictions, haccess, hmiss, ?_⟩
  intro hshort
  have hcount (p : List Branch → Branch → Bool) : countAfter p (branches trace) < 2 ^ 31 :=
    (countAfter_le_length p _).trans_lt hshort
  change run.final.counters.mispredictions.toInt = _ ∧ _ ∧ run.final.counters.miss.toInt = _
  rw [hmispredictions, haccess, hmiss]
  exact ⟨Int32.toInt_ofNat_of_lt (hcount _), Int32.toInt_ofNat_of_lt (hcount _),
    Int32.toInt_ofNat_of_lt (hcount _)⟩

/-- Four counters and two targets, on branches that share targets and a line that is skipped. -/
theorem simulate_counts_shared :
    let trace := ["1 4 0 0 0 0 T 0 0 0 0 10", "2 8 0 0 0 0 T 0 0 0 0 4", "3 8 0 0 0 0 - 0 0 0 0 0",
      "4 4 0 0 0 0 N 0 0 0 0 10", "5 c 0 0 0 0 T 0 0 0 0 8"]
    ∃ run, simulate (.ofLines trace) 4 2 true = .ok run ∧
      run.report.mispredictions = Int32.ofNat (mispredictionCount 4 (branches trace)) ∧
      run.final.counters.access = Int32.ofNat (accessCount 4 (branches trace)) ∧
      run.report.miss = Int32.ofNat (missCount 4 2 (branches trace)) ∧
      ((branches trace).length < 2 ^ 31 →
        run.report.mispredictions.toInt = mispredictionCount 4 (branches trace) ∧
          run.final.counters.access.toInt = accessCount 4 (branches trace) ∧
          run.report.miss.toInt = missCount 4 2 (branches trace)) :=
  simulate_counts 4 2 2 1 ⟨by decide, by decide, by decide, by decide⟩ (by decide) _ (by decide)
    true

/-- On branches with one address that are all taken every branch but the first is an access. -/
theorem accessCount_replicate (pc k : ℕ) :
    accessCount 2 (List.replicate (k + 1) ⟨pc, true⟩) = k ∧
      2 ≤ counterAt 2 (List.replicate (k + 1) ⟨pc, true⟩) (pc % 2) := by
  induction k with
  | zero =>
    constructor
    · simp [accessCount, countAfter, predictedTaken, counterAt, entry]
    · simp [counterAt, entry, saturate]
  | succ k ih =>
    have hle := counterAt_le 2 (List.replicate (k + 1) ⟨pc, true⟩) (pc % 2)
    rw [List.replicate_succ', accessCount, countAfter_append_singleton]
    constructor
    · rw [← accessCount, ih.1]
      simp [predictedTaken, ih.2]
    · rw [counterAt_append_singleton, if_pos rfl, saturate, if_pos rfl]
      omega

/-- From `2 ^ 31` accesses on the counter of accesses wraps around. -/
theorem access_wraps (k : ℕ) (hk : 2 ^ 31 ≤ k) :
    (∀ line ∈ List.replicate (k + 1) (branchLine 2 'T'), DecodableLine 2 2 line) ∧
      ∃ run, simulate (.ofLines (List.replicate (k + 1) (branchLine 2 'T'))) 2 2 false = .ok run ∧
        run.final.counters.access.toInt ≠
          accessCount 2 (branches (List.replicate (k + 1) (branchLine 2 'T'))) := by
  have hdecodable : ∀ line ∈ List.replicate (k + 1) (branchLine 2 'T'),
      DecodableLine (2 ^ 1) (2 ^ 1) line := by
    intro line hline
    rw [List.eq_of_mem_replicate hline]
    exact decodableLine_taken 1 1 2 (by decide) (by decide) (by decide) (by decide)
  obtain ⟨run, hrun, _⟩ := simulate_represents 2 2 1 1 ⟨by decide, by decide, by decide, by decide⟩
    le_rfl _ hdecodable false
  refine ⟨hdecodable, run, hrun, ?_⟩
  have hbranch : branchOf (branchLine 2 'T') = some ⟨2, true⟩ := by decide
  rw [branches, List.filterMap_replicate_of_some hbranch, (accessCount_replicate 2 k).1]
  have hlt := run.final.counters.access.toInt_lt
  omega

/-- One more than `2 ^ 31` taken branches at one address: the number of accesses is `2 ^ 31`, which
an `int` does not hold. -/
theorem access_ne_accessCount :
    (∀ line ∈ List.replicate (2 ^ 31 + 1) (branchLine 2 'T'), DecodableLine 2 2 line) ∧
      ∃ run,
        simulate (.ofLines (List.replicate (2 ^ 31 + 1) (branchLine 2 'T'))) 2 2 false = .ok run ∧
        run.final.counters.access.toInt ≠
          accessCount 2 (branches (List.replicate (2 ^ 31 + 1) (branchLine 2 'T'))) :=
  access_wraps (2 ^ 31) le_rfl

end Coursework.BranchPrediction.Sys2
