import LteMac.Proofs.Radio.Table

/-!
# Checked accesses

The definitions of this library are total: a block outside the grid counts as taken, a number
divided by zero is zero. A `Checked` computation is one that stops with a `Fault` instead, where an
index, a slice, a key, a shift or a divisor is not what the access needs. Every function that makes
such accesses has a checked version, and the theorem beside it says under which conditions the
version does not stop, and then it comes to the same.

* `Checked.foldlM_eq`: a checked loop comes to what the loop does, if every pass does, from what
  the passes before it leave.
-/

namespace LteMac

/-- Why an access cannot be made. -/
inductive Fault where
  /-- There is no element of this index. -/
  | index (i : Nat)
  /-- The slice does not lie in the list. -/
  | slice (start stop : Nat)
  /-- The map has no such key. -/
  | key
  /-- The word is not wider than the shift. -/
  | shift (places : Nat)
  /-- The divisor is zero. -/
  | division
deriving DecidableEq

/-- A computation that stops at the first access that cannot be made. -/
abbrev Checked := Except Fault

namespace Checked

/-! ## Accesses -/

section Accesses

variable {α : Type}

/-- What was found, or a fault. -/
def found (fault : Fault) : Option α → Checked α
  | some a => pure a
  | none => throw fault

/-- The element of a list of this index. -/
def read (xs : List α) (i : Nat) : Checked α := found (.index i) xs[i]?

/-- The element of an array of this index. -/
def readArray (xs : Array α) (i : Nat) : Checked α := found (.index i) xs[i]?

/-- Whether there is an element of this index. -/
def checkIndex (length i : Nat) : Checked Unit :=
  if i < length then pure () else throw (.index i)

/-- Puts an element in the place of another. -/
def writeArray (xs : Array α) (i : Nat) (a : α) : Checked (Array α) := do
  checkIndex xs.size i
  return xs.setIfInBounds i a

/-- Whether a slice lies in a list of this length. -/
def checkSlice (length start stop : Nat) : Checked Unit :=
  if start ≤ stop ∧ stop ≤ length then pure () else throw (.slice start stop)

/-- The elements from `start` on, up to but not with `stop`. -/
def slice (xs : List α) (start stop : Nat) : Checked (List α) := do
  checkSlice xs.length start stop
  return (xs.take stop).drop start

/-- The value of a key. -/
def lookup (t : Table Rnti α) (r : Rnti) : Checked α := found .key t[r]?

/-- The quotient. -/
def divide (a b : Nat) : Checked Nat := if b = 0 then throw .division else pure (a / b)

/-- The word of 32 bits with only this one set. -/
def bit (i : Nat) : Checked (BitVec 32) :=
  if i < 32 then pure (.twoPow 32 i) else throw (.shift i)

variable {xs : List α} {i : Nat} {a : α}

theorem read_eq (h : i < xs.length) : read xs i = pure xs[i] := by
  rw [read, List.getElem?_eq_getElem h]
  rfl

/-- In range, the value for other places does not matter. -/
theorem read_eq_getD (h : i < xs.length) (other : α) : read xs i = pure (xs.getD i other) := by
  rw [read_eq h, List.getD_eq_getElem?_getD, List.getElem?_eq_getElem h]
  rfl

theorem readArray_eq {xs : Array α} (h : xs[i]? = some a) : readArray xs i = pure a := by
  rw [readArray, h]
  rfl

theorem checkIndex_eq {length : Nat} (h : i < length) : checkIndex length i = pure () := if_pos h

theorem writeArray_eq {xs : Array α} (h : i < xs.size) :
    writeArray xs i a = pure (xs.setIfInBounds i a) := by
  rw [writeArray, checkIndex_eq h, pure_bind]

theorem checkSlice_eq {length start stop : Nat} (h : start ≤ stop) (h' : stop ≤ length) :
    checkSlice length start stop = pure () := if_pos ⟨h, h'⟩

theorem slice_eq {start stop : Nat} (h : start ≤ stop) (h' : stop ≤ xs.length) :
    slice xs start stop = pure ((xs.take stop).drop start) := by
  rw [slice, checkSlice_eq h h', pure_bind]

theorem lookup_eq {t : Table Rnti α} {r : Rnti} (h : t[r]? = some a) : lookup t r = pure a := by
  rw [lookup, h]
  rfl

theorem divide_eq {a b : Nat} (h : 0 < b) : divide a b = pure (a / b) :=
  if_neg (Nat.pos_iff_ne_zero.1 h)

theorem bit_eq (h : i < 32) : bit i = pure (.twoPow 32 i) := if_pos h

end Accesses

/-! ## Loops -/

section Loops

variable {α β : Type} {l : List α}

theorem mapM_eq {g : α → Checked β} {f : α → β} (h : ∀ a ∈ l, g a = pure (f a)) :
    l.mapM g = pure (l.map f) := by
  induction l with
  | nil => rfl
  | cons a l ih =>
    obtain ⟨ha, hl⟩ := List.forall_mem_cons.1 h
    rw [List.mapM_cons, ha, pure_bind, ih hl, pure_bind, List.map_cons]

theorem filterM_eq {g : α → Checked Bool} {p : α → Bool} (h : ∀ a ∈ l, g a = pure (p a)) :
    l.filterM g = pure (l.filter p) := by
  -- `filterM` gathers the elements in reverse.
  have haux : ∀ acc : List α, l.filterAuxM g acc = pure ((l.filter p).reverse ++ acc) := by
    induction l with
    | nil => exact fun _ => rfl
    | cons a l ih =>
      obtain ⟨ha, hl⟩ := List.forall_mem_cons.1 h
      intro acc
      rw [List.filterAuxM, ha, pure_bind, ih hl]
      cases hp : p a <;> simp [hp]
  rw [List.filterM, haux, pure_bind]
  simp

theorem allM_eq {g : α → Checked Bool} {p : α → Bool} (h : ∀ a ∈ l, g a = pure (p a)) :
    l.allM g = pure (l.all p) := by
  induction l with
  | nil => rfl
  | cons a l ih =>
    obtain ⟨ha, hl⟩ := List.forall_mem_cons.1 h
    rw [List.allM, ha, pure_bind, List.all_cons]
    cases p a with
    | false => rfl
    | true => exact ih hl

theorem findM?_eq {g : α → Checked Bool} {p : α → Bool} (h : ∀ a ∈ l, g a = pure (p a)) :
    l.findM? g = pure (l.find? p) := by
  induction l with
  | nil => rfl
  | cons a l ih =>
    obtain ⟨ha, hl⟩ := List.forall_mem_cons.1 h
    rw [List.findM?, ha, pure_bind, List.find?_cons]
    cases p a with
    | false => exact ih hl
    | true => rfl

theorem findSomeM?_eq {g : α → Checked (Option β)} {f : α → Option β}
    (h : ∀ a ∈ l, g a = pure (f a)) : l.findSomeM? g = pure (l.findSome? f) := by
  induction l with
  | nil => rfl
  | cons a l ih =>
    obtain ⟨ha, hl⟩ := List.forall_mem_cons.1 h
    rw [List.findSomeM?, ha, pure_bind, List.findSome?_cons]
    cases f a with
    | none => exact ih hl
    | some b => rfl

/-- A loop whose passes rely on something that each of them keeps. -/
theorem foldlM_eq {g : β → α → Checked β} {f : β → α → β} (Inv : β → Prop)
    (h : ∀ b, Inv b → ∀ a ∈ l, g b a = pure (f b a))
    (hkeep : ∀ b, Inv b → ∀ a ∈ l, Inv (f b a)) {b : β} (hb : Inv b) :
    l.foldlM g b = pure (l.foldl f b) := by
  induction l generalizing b with
  | nil => rfl
  | cons a l ih =>
    rw [List.foldlM_cons, h b hb a List.mem_cons_self, pure_bind, List.foldl_cons]
    exact ih (fun b hb a ha => h b hb a (List.mem_cons_of_mem _ ha))
      (fun b hb a ha => hkeep b hb a (List.mem_cons_of_mem _ ha))
      (hkeep b hb a List.mem_cons_self)

end Loops

/-! ## Tables -/

section Tables

variable {κ α : Type} [Ord κ] [Std.TransOrd κ]

/-- Changes the value of a key, if there is one. -/
def modify (t : Table κ α) (k : κ) (f : α → Checked α) : Checked (Table κ α) :=
  match t[k]? with
  | none => pure t
  | some a => (fun b => t.modify k fun _ => b) <$> f a

theorem modify_eq [Std.LawfulEqOrd κ] [DecidableEq κ] {t : Table κ α} {k : κ} {g : α → Checked α}
    {f : α → α} (h : ∀ a, t[k]? = some a → g a = pure (f a)) :
    modify t k g = pure (t.modify k f) := by
  unfold modify
  cases ht : t[k]? with
  | none =>
    refine congrArg pure (Std.ExtTreeMap.ext_getElem? fun k' => ?_)
    rw [Table.getElem?_modify, ht]
    split
    · next heq => rw [heq, ht]; rfl
    · rfl
  | some a =>
    dsimp only
    rw [h a ht, map_pure]
    refine congrArg pure (Std.ExtTreeMap.ext_getElem? fun k' => ?_)
    simp only [Table.getElem?_modify, ht, Option.map_some]

end Tables

end Checked

end LteMac
