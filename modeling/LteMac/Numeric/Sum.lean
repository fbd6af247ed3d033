/-!
# Sums over lists

The bytes of several queues, the entries of several tables: a quantity, added up over a list.
-/

namespace LteMac

/-- The sum of a quantity over a list. -/
def sumBy {α : Type} (f : α → Nat) (xs : List α) : Nat := xs.foldr (fun x n => f x + n) 0

variable {α β : Type}

@[simp] theorem sumBy_nil (f : α → Nat) : sumBy f [] = 0 := rfl

@[simp] theorem sumBy_cons (f : α → Nat) (x : α) (xs : List α) :
    sumBy f (x :: xs) = f x + sumBy f xs :=
  rfl

theorem sumBy_append (f : α → Nat) (xs ys : List α) :
    sumBy f (xs ++ ys) = sumBy f xs + sumBy f ys := by
  induction xs with
  | nil => exact (Nat.zero_add _).symm
  | cons x xs ih => rw [List.cons_append, sumBy_cons, ih, sumBy_cons, Nat.add_assoc]

theorem sumBy_map (f : β → Nat) (g : α → β) (xs : List α) :
    sumBy f (xs.map g) = sumBy (fun x => f (g x)) xs :=
  List.foldr_map

theorem sumBy_const (n : Nat) (xs : List α) : sumBy (fun _ => n) xs = xs.length * n := by
  induction xs with
  | nil => exact (Nat.zero_mul n).symm
  | cons x xs ih => rw [sumBy_cons, ih, List.length_cons, Nat.succ_mul, Nat.add_comm]

theorem sumBy_eq_zero {f : α → Nat} {xs : List α} (h : ∀ x ∈ xs, f x = 0) : sumBy f xs = 0 := by
  induction xs with
  | nil => rfl
  | cons x xs ih =>
    obtain ⟨hx, hxs⟩ := List.forall_mem_cons.1 h
    rw [sumBy_cons, hx, Nat.zero_add]
    exact ih hxs

end LteMac
