import Coursework.CacheSimulation.TraceRun
import Coursework.Recency.WriteBack

/-!
# Which blocks the simulator holds

A block is resident when a valid way of its index shows its tag. After every line of a
well-formed trace these are the blocks that the LRU sets hold.
-/

namespace Coursework.CacheSimulation.Sys2

open Coursework.Java
open Coursework.Recency

/-- A valid way of the index of a block shows its tag. -/
def Run.Resident (run : Run) (block : ℕ) : Prop :=
  ∃ id target, run.target id (block % run.geometry.sets) = some target ∧ target.valid = 1 ∧
    target.tag = hexText (block / run.geometry.sets)

/-- A block is resident after the first `m` lines of a trace. -/
def ResidentAfter (cacheSize setAssociativity : Int32) (trace : List String) (m block : ℕ) : Prop :=
  ∃ run, simulate (.ofLines (trace.take m)) cacheSize setAssociativity false 0 0 = .ok run ∧
    run.Resident block

/-- The access that line `m` of a trace stands for, if there is one. -/
def accessAt (lines : List String) (m : ℕ) : Option (Access ℕ) := lines[m]?.bind accessOf

/-- The valid ways of an index show the tags of the blocks that the set holds. -/
theorem cacheOf_shows_iff (W sets : ℕ) (hW : 0 < W) (past : List (Access ℕ)) (index : Fin sets)
    (block : ℕ) (hindex : index.val = block % sets) :
    (∃ id, (cacheOf W sets past id index).valid = 1 ∧
        (cacheOf W sets past id index).tag = hexText (block / sets)) ↔
      Holds (fun block => block % sets) W past block := by
  have hmem := (ways_perm W hW (setHistory sets past (block % sets))).mem_iff (a := block)
  rw [Holds, ← setHistory, ← hmem]
  constructor
  · intro h
    obtain ⟨id, hvalid, htag⟩ := h
    simp only [cacheOf, hindex] at hvalid htag
    cases hway : (ways W (setHistory sets past (block % sets)))[id.val]? with
    | none =>
      rw [hway] at hvalid
      simp [Target.empty] at hvalid
    | some c =>
      rw [hway] at htag
      have hc := List.mem_of_getElem? hway
      have hmod := ((mem_blocks_setHistory sets past (block % sets) c).mp
        (mem_blocks_of_mem_ways W hW _ c hc)).2
      obtain rfl := (hexText_eq_iff sets c block hmod).mp htag
      exact hc
  · intro h
    obtain ⟨i, hi, hget⟩ := List.mem_iff_getElem.mp h
    have hlt := hi.trans_le (ways_length_le W hW _)
    refine ⟨⟨i, hlt⟩, ?_⟩
    simp [cacheOf, hindex, List.getElem?_eq_getElem hi, hget, entryOf]

/-- The resident blocks of a finished run are those that the sets hold. -/
theorem Shows.resident_iff {run : Run} {w k : ℕ} {past : List (Access ℕ)} (h : Shows run w k past)
    (block : ℕ) :
    run.Resident block ↔ Holds (fun block => block % 2 ^ k) (2 ^ w) past block := by
  have hW : 0 < run.geometry.ways := by
    rw [h.ways]
    positivity
  have hsets : block % run.geometry.sets < run.geometry.sets := by
    apply Nat.mod_lt
    rw [h.sets]
    positivity
  rw [← h.ways, ← h.sets, ← cacheOf_shows_iff _ _ hW past ⟨_, hsets⟩ block rfl, ← h.final.cache]
  simp only [Run.Resident, Run.target]
  constructor
  · intro hresident
    obtain ⟨id, target, htarget, hvalid, htag⟩ := hresident
    by_cases hid : id < run.geometry.ways
    · rw [dif_pos ⟨hid, hsets⟩, Option.some.injEq] at htarget
      exact ⟨⟨id, hid⟩, by rw [htarget]; exact ⟨hvalid, htag⟩⟩
    · rw [dif_neg fun hboth => hid hboth.1] at htarget
      contradiction
  · intro hway
    obtain ⟨id, hvalid, htag⟩ := hway
    exact ⟨id, _, dif_pos ⟨id.isLt, hsets⟩, hvalid, htag⟩

/-- The history before line `m`. -/
theorem historyAt_accessAt (lines : List String) (m : ℕ) :
    historyAt (accessAt lines) m = (accesses (lines.take m)).reverse := by
  induction m with
  | zero => simp [historyAt, accesses]
  | succ m ih =>
    rw [historyAt, ih, accessAt, List.take_add_one, accesses, accesses, List.filterMap_append,
      List.reverse_append]
    cases lines[m]? with
    | none => rfl
    | some line => cases hline : accessOf line <;> simp [hline]

/-- The access of line `i` follows the accesses of the lines before. -/
theorem accesses_getElem?_take (lines : List String) (i : ℕ) (a : Access ℕ)
    (ha : accessAt lines i = some a) :
    (accesses lines)[(accesses (lines.take i)).length]? = some a ∧
      (accesses lines).take (accesses (lines.take i)).length = accesses (lines.take i) := by
  obtain ⟨line, hline, haccess⟩ := Option.bind_eq_some_iff.mp ha
  obtain ⟨hlt, hget⟩ := List.getElem?_eq_some_iff.mp hline
  have hsplit : accesses lines = accesses (lines.take i) ++ a :: accesses (lines.drop (i + 1)) := by
    calc accesses lines = accesses (lines.take i ++ lines.drop i) := by
          rw [List.take_append_drop]
      _ = accesses (lines.take i) ++ a :: accesses (lines.drop (i + 1)) := by
          rw [List.drop_eq_getElem_cons hlt, hget, accesses, List.filterMap_append,
            List.filterMap_cons_some haccess]
          rfl
  rw [hsplit]
  constructor
  · rw [List.getElem?_append_right le_rfl, Nat.sub_self, List.getElem?_cons_zero]
  · rw [List.take_append_of_le_length le_rfl, List.take_length]

/-- After every line the resident blocks are those that the sets hold. -/
theorem residentAfter_iff (cacheSize setAssociativity : Int32) (w k : ℕ)
    (hgeometry : CacheGeometry cacheSize setAssociativity w k) (trace : List String)
    (hlen : (accesses trace).length < 2 ^ 31)
    (hwf : ∀ line ∈ trace, WellFormedLine (2 ^ k) line)
    (m block : ℕ) :
    ResidentAfter cacheSize setAssociativity trace m block ↔
      Holds (fun block => block % 2 ^ k) (2 ^ w) (historyAt (accessAt trace) m) block := by
  have htake : (accesses (trace.take m)).length < 2 ^ 31 :=
    ((List.take_sublist m trace).filterMap accessOf).length_le.trans_lt hlen
  obtain ⟨run, hrun, hshows⟩ := simulate_shows cacheSize setAssociativity w k hgeometry
    (trace.take m) htake (fun line h => hwf line (List.mem_of_mem_take h)) false 0 0
  rw [historyAt_accessAt, ← hshows.resident_iff]
  simp only [ResidentAfter, hrun, Except.ok.injEq, exists_eq_left']

end Coursework.CacheSimulation.Sys2
