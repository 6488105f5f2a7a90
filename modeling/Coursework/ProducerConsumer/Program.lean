import Coursework.Concurrency.RingBuffer
import Coursework.Concurrency.WorkerPool
import Mathlib.Data.Fintype.Sum

/-!
# The producer-consumer program

`main` gives every producer its index and its number of items, splits the total among
the consumers by an integer division, creates all threads and joins them. A producer
numbers its items by its index; a consumer prints what it takes out of the buffer.
-/

namespace Coursework.ProducerConsumer

open Concurrency

/-- `BUFFER_SIZE`. -/
def bufferSize : ℕ := 16

/-- The command-line arguments; `main` ends at once if one of them is not positive. -/
structure Arguments where
  producerNum : Int32
  consumerNum : Int32
  itemNum : Int32
  producerNum_pos : 0 < producerNum := by decide
  consumerNum_pos : 0 < consumerNum := by decide
  itemNum_pos : 0 < itemNum := by decide

/-- The number of producer threads. -/
def Arguments.producers (args : Arguments) : ℕ := args.producerNum.toNatClampNeg

/-- The number of consumer threads. -/
def Arguments.consumers (args : Arguments) : ℕ := args.consumerNum.toNatClampNeg

/-- The number of items of each producer. -/
def Arguments.items (args : Arguments) : ℕ := args.itemNum.toNatClampNeg

/-- `struct Producer_section`. -/
structure ProducerSection where
  threadIndex : Int32
  numProduced : Int32

/-- `struct Consumer_section`. -/
structure ConsumerSection where
  threadIndex : Int32
  numConsumed : Int32

/-- `producerSection[i]`. -/
def Arguments.producerSection (args : Arguments) (i : Fin args.producers) : ProducerSection :=
  ⟨Int32.ofNat i, args.itemNum⟩

/-- `total_items`, summed over the producer sections. -/
def Arguments.totalItems (args : Arguments) : Int32 :=
  (List.finRange args.producers).foldl
    (fun total i => total + (args.producerSection i).numProduced) 0

/-- `consumerSection[i]`. -/
def Arguments.consumerSection (args : Arguments) (i : Fin args.consumers) : ConsumerSection :=
  ⟨Int32.ofNat i, args.totalItems / args.consumerNum⟩

/-- The global variables, the values written so far with their slots, and the printed lines, each
with the thread index and the value. -/
structure Shared where
  ring : RingBuffer bufferSize Int32
  written : List (Fin bufferSize × Int32)
  printed : List (Int32 × Int32)

/-- The values written to the buffer, in the order of the critical sections. -/
def Shared.produced (shared : Shared) : List Int32 := shared.written.map Prod.snd

/-- The values printed by the consumers, in the order of the critical sections. -/
def Shared.consumed (shared : Shared) : List Int32 := shared.printed.map Prod.snd

/-- `next_produced`. -/
def ProducerSection.nextProduced (param : ProducerSection) (counter : ℕ) : Int32 :=
  param.threadIndex * param.numProduced + Int32.ofNat counter

/-- The critical section of `producer`. -/
def producer (param : ProducerSection) (counter : ℕ) (shared : Shared) : Shared :=
  { shared with
    ring := shared.ring.write (param.nextProduced counter)
    written := shared.written ++ [(shared.ring.inIndex, param.nextProduced counter)] }

/-- The critical section of `consumer`. -/
def consumer (param : ConsumerSection) (shared : Shared) : Shared :=
  { shared with
    ring := shared.ring.advance
    printed := shared.printed ++ [(param.threadIndex, shared.ring.read)] }

/-- A producer appends its next item to the values produced. -/
@[simp] theorem produced_producer (param : ProducerSection) (counter : ℕ) (shared : Shared) :
    (producer param counter shared).produced =
      shared.produced ++ [param.nextProduced counter] := by
  simp [producer, Shared.produced]

/-- A consumer appends the next unread value to the values consumed. -/
@[simp] theorem consumed_consumer (param : ConsumerSection) (shared : Shared) :
    (consumer param shared).consumed = shared.consumed ++ [shared.ring.read] := by
  simp [consumer, Shared.consumed]

/-- The two semaphores. -/
inductive Semaphore where
  | empty
  | full
  deriving DecidableEq, Repr

/-- The child threads: the producers on the left, the consumers on the right. -/
abbrev Arguments.Thread (args : Arguments) : Type := Fin args.producers ⊕ Fin args.consumers

/-- The threads of the program, and the globals as `main` initialises them. -/
def Arguments.program (args : Arguments) : Pool args.Thread Semaphore Shared where
  waitsOn
    | .inl _ => .empty
    | .inr _ => .full
  postsTo
    | .inl _ => .full
    | .inr _ => .empty
  rounds
    | .inl i => (args.producerSection i).numProduced.toNatClampNeg
    | .inr i => (args.consumerSection i).numConsumed.toNatClampNeg
  body
    | .inl i, counter => producer (args.producerSection i) counter
    | .inr i, _ => consumer (args.consumerSection i)
  permits
    | .empty => bufferSize
    | .full => 0
  shared := ⟨⟨fun _ => 0, ⟨0, by decide⟩, ⟨0, by decide⟩⟩, [], []⟩
  order := (List.finRange args.producers).map .inl ++ (List.finRange args.consumers).map .inr
  nodup := by
    refine List.Nodup.append ((List.nodup_finRange _).map Sum.inl_injective)
      ((List.nodup_finRange _).map Sum.inr_injective) ?_
    simp [List.Disjoint]
  complete i := by
    cases i <;> simp

/-- Two producers of two items each, and one consumer. -/
def twoProducers : Arguments := { producerNum := 2, consumerNum := 1, itemNum := 2 }

/-- One producer of seventeen items, and eighteen consumers that each take none. -/
def seventeenItems : Arguments := { producerNum := 1, consumerNum := 18, itemNum := 17 }

/-- One producer of one item, and two consumers. -/
def oneItem : Arguments := { producerNum := 1, consumerNum := 2, itemNum := 1 }

end Coursework.ProducerConsumer
