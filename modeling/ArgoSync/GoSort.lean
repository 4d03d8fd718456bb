import Mathlib.Data.List.Perm.Basic
import Mathlib.Data.List.Pairwise
/-!
# Go's `sort.Sort`, as the model takes it

`generateSyncTasks` sorts with `sort.Sort`, which is Go's library and not
this repository's code. Its documentation promises a permutation of the
slice, in order when `Less` is a strict weak order. What it does with a
`Less` that is not one depends on the Go release and the slice's length. So
the model takes the sort as any `SortAlgo`, the structure of those two
promises. Every theorem over sorted task lists quantifies over it.

One `SortAlgo` is written out: `insertionSort`, the loop `sort.Sort` runs
on a slice of at most six elements in every Go release (longer slices first
get a gap-six pass, or quicksort past twelve). `insertionSort_sorted` is the
promise for it. The concrete runs of the model use it.
-/

namespace ArgoSync

open scoped List

variable {α : Type}

/-- `less` is a strict weak order on the elements of `l`: irreflexive,
transitive, and with transitive incomparability, stated here as "`a < c`
puts every `b` above `a` or below `c`". -/
structure StrictWeakOn (less : α → α → Bool) (l : List α) : Prop where
  irrefl : ∀ a ∈ l, less a a = false
  trans : ∀ a ∈ l, ∀ b ∈ l, ∀ c ∈ l, less a b → less b c → less a c
  connected : ∀ a ∈ l, ∀ b ∈ l, ∀ c ∈ l, less a c → less a b ∨ less b c

/-- What the model needs of `sort.Sort`: it permutes, and under a strict weak
order it leaves no later element `less` than an earlier one. -/
structure SortAlgo (α : Type) where
  sort : (α → α → Bool) → List α → List α
  perm : ∀ less l, sort less l ~ l
  sorted : ∀ less l, StrictWeakOn less l → (sort less l).Pairwise (fun a b => less b a = false)

/-- A sort leaves an empty slice empty. -/
@[simp] theorem SortAlgo.sort_nil (S : SortAlgo α) (less : α → α → Bool) : S.sort less [] = [] :=
  (S.perm less []).eq_nil

theorem StrictWeakOn.asymm {less : α → α → Bool} {l : List α} (h : StrictWeakOn less l)
    {a b : α} (ha : a ∈ l) (hb : b ∈ l) (hab : less a b) : less b a = false := by
  cases hba : less b a
  · rfl
  · have := h.trans a ha b hb a ha hab hba
    rw [h.irrefl a ha] at this
    exact absurd this Bool.false_ne_true

/-! ## Go's insertion sort

`for i := a + 1; i < b; i++ { for j := i; j > a && Less(j, j-1); j-- { Swap(j, j-1) } }`.
The sorted prefix is kept reversed, nearest element first, so that the inner
loop's walk to the left is a walk down the list. -/

/-- The inner loop: `x` moves left past every element it is `less` than and
stops at the first it is not. -/
def sinkRev (less : α → α → Bool) (x : α) : List α → List α
  | [] => [x]
  | y :: ys => if less x y then y :: sinkRev less x ys else x :: y :: ys

/-- The outer loop, on the reversed prefix `acc`. -/
def insertionSortRev (less : α → α → Bool) : List α → List α → List α
  | acc, [] => acc
  | acc, x :: xs => insertionSortRev less (sinkRev less x acc) xs

/-- `insertionSort(data, 0, n)`. -/
def insertionSort (less : α → α → Bool) (l : List α) : List α :=
  (insertionSortRev less [] l).reverse

theorem sinkRev_perm (less : α → α → Bool) (x : α) (acc : List α) :
    sinkRev less x acc ~ x :: acc := by
  induction acc with
  | nil => rfl
  | cons y ys ih =>
    unfold sinkRev
    split
    · exact ((ih.cons y).trans (List.Perm.swap x y ys))
    · rfl

theorem insertionSortRev_perm (less : α → α → Bool) (acc l : List α) :
    insertionSortRev less acc l ~ l.reverse ++ acc := by
  induction l generalizing acc with
  | nil => rfl
  | cons x xs ih =>
    refine (ih _).trans ?_
    simpa using (sinkRev_perm less x acc).append_left xs.reverse

theorem insertionSort_perm (less : α → α → Bool) (l : List α) : insertionSort less l ~ l :=
  (List.reverse_perm _).trans
    ((insertionSortRev_perm less [] l).trans (by simp))

/-- **One pass of the inner loop keeps the prefix sorted.** The reversed prefix
has no element `less` than a later one; `x` stops above the first element it
is not below, and is then not below anything further by the strict weak
order. -/
theorem sinkRev_pairwise {less : α → α → Bool} {l : List α} (h : StrictWeakOn less l) {x : α}
    (hx : x ∈ l) : ∀ acc : List α, (∀ y ∈ acc, y ∈ l) →
      acc.Pairwise (fun a b => less a b = false) →
      (sinkRev less x acc).Pairwise (fun a b => less a b = false)
  | [], _, _ => List.pairwise_singleton _ _
  | y :: ys, hacc, hp => by
    have hy : y ∈ l := hacc y (List.mem_cons_self y ys)
    obtain ⟨hyys, hys⟩ := List.pairwise_cons.mp hp
    unfold sinkRev
    split
    · rename_i hxy
      refine List.pairwise_cons.mpr ⟨fun z hz => ?_,
        sinkRev_pairwise h hx ys (fun z hz => hacc z (List.mem_cons_of_mem y hz)) hys⟩
      rcases List.mem_cons.mp ((sinkRev_perm less x ys).subset hz) with rfl | hz
      · exact h.asymm hx hy hxy
      · exact hyys z hz
    · rename_i hxy
      refine List.pairwise_cons.mpr ⟨fun z hz => ?_, hp⟩
      rcases List.mem_cons.mp hz with rfl | hz
      · simpa using hxy
      · cases hxz : less x z
        · rfl
        · have hz' : z ∈ l := hacc z (List.mem_cons_of_mem y hz)
          rcases h.connected x hx y hy z hz' hxz with hxy' | hyz
          · exact absurd hxy' hxy
          · rw [hyys z hz] at hyz; exact absurd hyz Bool.false_ne_true

theorem insertionSortRev_pairwise {less : α → α → Bool} {l : List α} (h : StrictWeakOn less l) :
    ∀ (rest acc : List α), (∀ y ∈ rest, y ∈ l) → (∀ y ∈ acc, y ∈ l) →
      acc.Pairwise (fun a b => less a b = false) →
      (insertionSortRev less acc rest).Pairwise (fun a b => less a b = false)
  | [], _, _, _, hp => hp
  | x :: xs, acc, hrest, hacc, hp =>
    insertionSortRev_pairwise h xs _ (fun y hy => hrest y (List.mem_cons_of_mem x hy))
      (fun y hy => by
        rcases List.mem_cons.mp ((sinkRev_perm less x acc).subset hy) with rfl | hy
        · exact hrest y (List.mem_cons_self y xs)
        · exact hacc y hy)
      (sinkRev_pairwise h (hrest x (List.mem_cons_self x xs)) acc hacc hp)

/-- **Go's insertion sort keeps its promise.** -/
theorem insertionSort_sorted (less : α → α → Bool) (l : List α) (h : StrictWeakOn less l) :
    (insertionSort less l).Pairwise (fun a b => less b a = false) :=
  List.pairwise_reverse.mpr
    (insertionSortRev_pairwise h l [] (fun _ hy => hy) (fun _ hy => nomatch hy) List.Pairwise.nil)

/-- `sort.Sort` on a slice of at most six elements. -/
def goInsertionSort (α : Type) : SortAlgo α :=
  ⟨insertionSort, insertionSort_perm, insertionSort_sorted⟩

end ArgoSync
