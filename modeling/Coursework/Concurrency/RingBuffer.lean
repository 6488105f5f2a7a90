import Mathlib.Data.Fin.Basic
import Mathlib.Data.List.Basic
import Mathlib.Data.Nat.ModEq

/-!
# A ring buffer against its history

A buffer with two wrapping indices carries a queue as long as a write finds a free slot
and a read finds an unread one. The history of writes, each with the slot it went to,
and the number of reads say what every slot holds and which slots are unread.
-/

namespace Coursework.Concurrency

variable {n : ℕ} {α : Type*}

/-- A buffer, the index of the next write and the index of the next read. -/
structure RingBuffer (n : ℕ) (α : Type*) where
  buffer : Fin n → α
  inIndex : Fin n
  outIndex : Fin n

/-- `(i + 1) % n`. -/
def nextIndex (i : Fin n) : Fin n := ⟨(i.val + 1) % n, Nat.mod_lt _ i.pos⟩

/-- Write to the next slot. -/
def RingBuffer.write (ring : RingBuffer n α) (value : α) : RingBuffer n α where
  buffer i := if i = ring.inIndex then value else ring.buffer i
  inIndex := nextIndex ring.inIndex
  outIndex := ring.outIndex

/-- The value of the next read. -/
def RingBuffer.read (ring : RingBuffer n α) : α := ring.buffer ring.outIndex

/-- Advance to the slot after the next read. -/
def RingBuffer.advance (ring : RingBuffer n α) : RingBuffer n α :=
  { ring with outIndex := nextIndex ring.outIndex }

/-- The buffer shows a history of writes, of which the first `reads` have been read. -/
structure RingBuffer.Shows (ring : RingBuffer n α) (written : List (Fin n × α)) (reads : ℕ) :
    Prop where
  reads_le : reads ≤ written.length
  le_reads : written.length ≤ reads + n
  inIndex : ring.inIndex.val = written.length % n
  outIndex : ring.outIndex.val = reads % n
  slots : ∀ k entry, written[k]? = some entry → entry.1.val = k % n
  unread : ∀ k entry, reads ≤ k → written[k]? = some entry → ring.buffer entry.1 = entry.2

/-- A ring buffer whose indices are at its first slot shows the empty history. -/
theorem RingBuffer.Shows.initial (ring : RingBuffer n α) (hin : ring.inIndex.val = 0)
    (hout : ring.outIndex.val = 0) : ring.Shows [] 0 where
  reads_le := le_rfl
  le_reads := Nat.zero_le _
  inIndex := by simp [hin]
  outIndex := by simp [hout]
  slots := by simp
  unread := by simp

/-- Positions less than one round apart have different slots. -/
theorem mod_ne_mod_of_lt (j k : ℕ) (hjk : j < k) (hkn : k < j + n) : j % n ≠ k % n := by
  intro h
  have hdvd : n ∣ k - j := (Nat.modEq_iff_dvd' hjk.le).mp h
  have hle := Nat.le_of_dvd (by omega) hdvd
  omega

/-- While a slot is free the next write goes to no unread slot. -/
theorem RingBuffer.Shows.inIndex_ne {ring : RingBuffer n α} {written : List (Fin n × α)}
    {reads : ℕ} (h : ring.Shows written reads) (hfree : written.length < reads + n) (k : ℕ)
    (entry : Fin n × α) (hk : reads ≤ k) (hentry : written[k]? = some entry) :
    entry.1 ≠ ring.inIndex := by
  intro heq
  have hlt := (List.getElem?_eq_some_iff.mp hentry).1
  have hslot := h.slots k entry hentry
  rw [heq, h.inIndex] at hslot
  exact mod_ne_mod_of_lt k written.length hlt (by omega) hslot.symm

/-- A write to a free slot extends the history. -/
theorem RingBuffer.Shows.write {ring : RingBuffer n α} {written : List (Fin n × α)} {reads : ℕ}
    (h : ring.Shows written reads) (hfree : written.length < reads + n) (value : α) :
    (ring.write value).Shows (written ++ [(ring.inIndex, value)]) reads where
  reads_le := by
    have := h.reads_le
    simp
    omega
  le_reads := by
    simp
    omega
  inIndex := by simp [RingBuffer.write, nextIndex, h.inIndex]
  outIndex := h.outIndex
  slots k entry hentry := by
    by_cases hk : k < written.length
    · rw [List.getElem?_append_left hk] at hentry
      exact h.slots k entry hentry
    · rw [List.getElem?_append_right (by omega), List.getElem?_singleton] at hentry
      split at hentry
      · obtain rfl := Option.some.inj hentry
        rw [h.inIndex, show k = written.length by omega]
      · contradiction
  unread k entry hreads hentry := by
    by_cases hk : k < written.length
    · rw [List.getElem?_append_left hk] at hentry
      have hne := h.inIndex_ne hfree k entry hreads hentry
      simp only [RingBuffer.write, if_neg hne]
      exact h.unread k entry hreads hentry
    · rw [List.getElem?_append_right (by omega), List.getElem?_singleton] at hentry
      split at hentry
      · obtain rfl := Option.some.inj hentry
        simp [RingBuffer.write]
      · contradiction

/-- The next read finds the first unread write, in its slot. -/
theorem RingBuffer.Shows.read_eq {ring : RingBuffer n α} {written : List (Fin n × α)} {reads : ℕ}
    (h : ring.Shows written reads) (hunread : reads < written.length) :
    written[reads]? = some (ring.outIndex, ring.read) := by
  have hentry := List.getElem?_eq_getElem hunread
  have hslot : written[reads].1 = ring.outIndex :=
    Fin.ext ((h.slots reads _ hentry).trans h.outIndex.symm)
  have hvalue := h.unread reads _ le_rfl hentry
  rw [hentry, RingBuffer.read, ← hslot, hvalue]

/-- A read of an unread slot moves on. -/
theorem RingBuffer.Shows.advance {ring : RingBuffer n α} {written : List (Fin n × α)} {reads : ℕ}
    (h : ring.Shows written reads) (hunread : reads < written.length) :
    ring.advance.Shows written (reads + 1) where
  reads_le := hunread
  le_reads := by
    have := h.le_reads
    omega
  inIndex := h.inIndex
  outIndex := by simp [RingBuffer.advance, nextIndex, h.outIndex]
  slots := h.slots
  unread k entry hreads hentry := h.unread k entry (by omega) hentry

end Coursework.Concurrency
