import Coursework.Concurrency.PoolInvariant
import Coursework.ProducerConsumer.Program
import Mathlib.Algebra.BigOperators.Fin
import Mathlib.Algebra.Order.Group.Multiset
import Mathlib.Algebra.Order.BigOperators.Group.Finset

/-!
# The numbers of the items

As long as the total fits an `int`, the producers number their items from zero without
gaps or repetitions, and every consumer takes the rounded-down share of the total.
-/

namespace Coursework.ProducerConsumer

open Concurrency Transition

variable (args : Arguments)

/-- The total number of items. -/
def Arguments.total : ℕ := args.producers * args.items

/-- The number of items of each consumer. -/
def Arguments.share : ℕ := args.total / args.consumers

/-- The total number of items fits an `int`. -/
def Arguments.Fits : Prop := args.total < 2 ^ 31

instance : Decidable args.Fits := inferInstanceAs (Decidable (args.total < 2 ^ 31))

/-- The items `0` to `total - 1`. -/
def Arguments.allItems : List Int32 := (List.range args.total).map Int32.ofNat

/-- The number of consumers is the argument. -/
theorem Arguments.ofNat_consumers : Int32.ofNat args.consumers = args.consumerNum :=
  Int32.ofNat_toNatClampNeg _ (Int32.le_of_lt args.consumerNum_pos)

/-- The number of items of each producer is the argument. -/
theorem Arguments.ofNat_items : Int32.ofNat args.items = args.itemNum :=
  Int32.ofNat_toNatClampNeg _ (Int32.le_of_lt args.itemNum_pos)

/-- `total_items` is the total number of items, as an `int`. -/
theorem Arguments.totalItems_eq : args.totalItems = Int32.ofNat args.total := by
  have hfold : ∀ (producers : List (Fin args.producers)) (total : Int32),
      producers.foldl (fun total i => total + (args.producerSection i).numProduced) total =
        total + Int32.ofNat (producers.length * args.items) := by
    intro producers
    induction producers with
    | nil => simp
    | cons i rest ih =>
      intro total
      rw [List.foldl_cons, ih, List.length_cons, Nat.succ_mul, Int32.ofNat_add,
        args.ofNat_items, Int32.add_assoc, Int32.add_comm _ args.itemNum]
      rfl
  rw [Arguments.totalItems, hfold, List.length_finRange, Int32.zero_add]
  rfl

/-- A producer runs one round for each of its items. -/
theorem Arguments.rounds_inl (i : Fin args.producers) :
    args.program.rounds (.inl i) = args.items := rfl

/-- A consumer runs one round for each item of its share. -/
theorem Arguments.rounds_inr (hfits : args.Fits) (i : Fin args.consumers) :
    args.program.rounds (.inr i) = args.share := by
  have hconsumers : args.consumers < 2 ^ 31 := Int32.toNatClampNeg_lt _
  have hshare : args.share < 2 ^ 31 := lt_of_le_of_lt (Nat.div_le_self _ _) hfits
  change (args.totalItems / args.consumerNum).toNatClampNeg = args.share
  rw [args.totalItems_eq, ← args.ofNat_consumers, ← Int32.ofNat_div hfits hconsumers]
  exact Int32.toNatClampNeg_ofNat_of_lt hshare

/-- A producer numbers its items from its index times the number of items of each producer. -/
theorem Arguments.nextProduced_eq (i : Fin args.producers) (counter : ℕ) :
    (args.producerSection i).nextProduced counter = Int32.ofNat (i * args.items + counter) := by
  rw [Int32.ofNat_add, Int32.ofNat_mul, args.ofNat_items]
  rfl

/-- Consecutive ranges of one length make up a range. -/
theorem sum_range_eq (n k : ℕ) :
    ∑ i : Fin n, (Multiset.range k).map (fun c => i.val * k + c) = Multiset.range (n * k) := by
  induction n with
  | zero => simp
  | succ n ih =>
    rw [Fin.sum_univ_castSucc, Nat.succ_mul, Multiset.range_add]
    exact congrArg₂ (· + ·) ih rfl

/-- Initial segments of consecutive ranges are part of a range. -/
theorem sum_range_le (n k : ℕ) (counts : Fin n → ℕ) (h : ∀ i, counts i ≤ k) :
    ∑ i, (Multiset.range (counts i)).map (fun c => i.val * k + c) ≤ Multiset.range (n * k) := by
  rw [← sum_range_eq]
  refine Finset.sum_le_sum fun i _ => ?_
  exact Multiset.map_le_map (Multiset.range_le.mpr (h i))

/-- The items that the producers have numbered. -/
def Arguments.itemsOf (counts : Fin args.producers → ℕ) : Multiset Int32 :=
  ∑ i, (Multiset.range (counts i)).map (args.producerSection i).nextProduced

/-- Numbered items, as numbers. -/
theorem Arguments.itemsOf_eq (counts : Fin args.producers → ℕ) : args.itemsOf counts =
    (∑ i, (Multiset.range (counts i)).map (fun c => i.val * args.items + c)).map Int32.ofNat := by
  rw [Arguments.itemsOf, ← Multiset.coe_mapAddMonoidHom, map_sum]
  refine Finset.sum_congr rfl fun i _ => ?_
  rw [Multiset.coe_mapAddMonoidHom, Multiset.map_map]
  exact Multiset.map_congr rfl fun c _ => args.nextProduced_eq i c

/-- The producers number some of the items. -/
theorem Arguments.itemsOf_le (counts : Fin args.producers → ℕ) (h : ∀ i, counts i ≤ args.items) :
    args.itemsOf counts ≤ args.allItems := by
  rw [args.itemsOf_eq]
  exact Multiset.map_le_map (sum_range_le _ _ _ h)

/-- A producer that numbers one more item adds it. -/
theorem Arguments.itemsOf_update (counts : Fin args.producers → ℕ) (i : Fin args.producers) :
    args.itemsOf (Function.update counts i (counts i + 1)) =
      args.itemsOf counts + {(args.producerSection i).nextProduced (counts i)} := by
  have hsum := sum_update_add Finset.univ
    (fun j count => (Multiset.range count).map (args.producerSection j).nextProduced) counts i
    (counts i + 1)
  rw [if_pos (Finset.mem_univ i), if_pos (Finset.mem_univ i), Multiset.range_succ,
    Multiset.map_cons, ← Multiset.singleton_add, ← add_assoc] at hsum
  exact add_right_cancel hsum

/-- Items are distinct as long as their total fits an `int`. -/
theorem Arguments.nodup_allItems (hfits : args.Fits) : args.allItems.Nodup := by
  refine List.Nodup.map_on ?_ List.nodup_range
  intro a ha b hb heq
  have hbound : ∀ c ∈ List.range args.total, c < 2 ^ 31 := fun c hc =>
    lt_trans (List.mem_range.mp hc) hfits
  rw [← Int32.toNatClampNeg_ofNat_of_lt (hbound a ha), heq,
    Int32.toNatClampNeg_ofNat_of_lt (hbound b hb)]

end Coursework.ProducerConsumer
