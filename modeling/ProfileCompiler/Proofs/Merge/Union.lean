import Mathlib.Data.List.Induction
import ProfileCompiler.Merge
import ProfileCompiler.Proofs.Value.Sameness

/-!
# Lists without repetitions

Lists are joined by adding one item after the other, unless the same item is there already.  An
item is compared with those that were added.  This comes to the same as comparing it with all items
before it, for an item that was not added is the same as one that was, and sameness is transitive.
So a union is a list of first occurrences (`union_eq`), and so is a union of unions
(`union_assoc`, `foldl_union`), whichever way the items come in.
-/

namespace ProfileCompiler

/-- The items that are the same as none of the earlier ones and none of those before them. -/
def firstsAfter (earlier : List Value) : List Value → List Value
  | [] => []
  | item :: rest =>
    if earlier.any (· == item) then firstsAfter (earlier ++ [item]) rest
    else item :: firstsAfter (earlier ++ [item]) rest

/-- The items of a list that are the same as none before them. -/
def firstOccurrences (items : List Value) : List Value := firstsAfter [] items

variable {earlier done items : List Value}

/-! ## Items after earlier ones -/

lemma firstsAfter_cons_of_any {item : Value} (h : earlier.any (· == item) = true)
    (rest : List Value) :
    firstsAfter earlier (item :: rest) = firstsAfter (earlier ++ [item]) rest := if_pos h

lemma firstsAfter_cons_of_not_any {item : Value} (h : earlier.any (· == item) = false)
    (rest : List Value) :
    firstsAfter earlier (item :: rest) = item :: firstsAfter (earlier ++ [item]) rest :=
  if_neg (Bool.eq_false_iff.1 h)

lemma any_append_singleton (earlier : List Value) (item v : Value) :
    (earlier ++ [item]).any (· == v) = (earlier.any (· == v) || item == v) := by
  simp

/-- What is the same as an item that is there is there. -/
lemma any_of_any_of_beq {v w : Value} (h : earlier.any (· == v) = true) (hvw : (v == w) = true) :
    earlier.any (· == w) = true := by
  obtain ⟨u, hu, huv⟩ := List.any_eq_true.1 h
  exact List.any_eq_true.2 ⟨u, hu, Value.same_trans huv hvw⟩

/-- An item that is there adds nothing to what is there. -/
lemma any_append_singleton_of_any {item : Value} (h : earlier.any (· == item) = true) (v : Value) :
    (earlier ++ [item]).any (· == v) = earlier.any (· == v) := by
  rw [any_append_singleton]
  cases hv : item == v with
  | false => rw [Bool.or_false]
  | true => rw [any_of_any_of_beq h hv, Bool.true_or]

/-- It only counts which items are there. -/
lemma firstsAfter_congr (h : ∀ v, earlier.any (· == v) = done.any (· == v)) (items : List Value) :
    firstsAfter earlier items = firstsAfter done items := by
  induction items generalizing earlier done with
  | nil => rfl
  | cons item rest ih =>
    have hnext : ∀ v, (earlier ++ [item]).any (· == v) = (done ++ [item]).any (· == v) := by
      intro v
      rw [any_append_singleton, any_append_singleton, h]
    rw [firstsAfter, firstsAfter, h, ih hnext]

lemma firstsAfter_append (earlier xs ys : List Value) :
    firstsAfter earlier (xs ++ ys) = firstsAfter earlier xs ++ firstsAfter (earlier ++ xs) ys := by
  induction xs generalizing earlier with
  | nil => rw [List.append_nil, firstsAfter, List.nil_append, List.nil_append]
  | cons x xs ih =>
    rw [List.cons_append, firstsAfter, firstsAfter, ih, List.append_assoc, List.singleton_append]
    split <;> rfl

lemma firstsAfter_eq_nil (h : ∀ v ∈ items, earlier.any (· == v) = true) :
    firstsAfter earlier items = [] := by
  induction items with
  | nil => rfl
  | cons item rest ih =>
    obtain ⟨hitem, hrest⟩ := List.forall_mem_cons.1 h
    rw [firstsAfter_cons_of_any hitem, firstsAfter_congr (any_append_singleton_of_any hitem)]
    exact ih hrest

lemma firstsAfter_sublist (earlier items : List Value) :
    (firstsAfter earlier items).Sublist items := by
  induction items generalizing earlier with
  | nil => exact .slnil
  | cons item rest ih =>
    rw [firstsAfter]
    split
    · exact (ih _).cons item
    · exact (ih _).cons_cons item

/-- Items that are left out after some items are left out after more items as well. -/
lemma firstsAfter_firstsAfter (h : ∀ v, done.any (· == v) = true → earlier.any (· == v) = true)
    (items : List Value) :
    firstsAfter earlier (firstsAfter done items) = firstsAfter earlier items := by
  induction items generalizing earlier done with
  | nil => rfl
  | cons item rest ih =>
    cases hdone : done.any (· == item) with
    | false =>
      have hnext : ∀ v, (done ++ [item]).any (· == v) = true →
          (earlier ++ [item]).any (· == v) = true := by
        intro v hv
        rw [any_append_singleton, Bool.or_eq_true] at hv ⊢
        exact hv.imp_left (h v)
      rw [firstsAfter_cons_of_not_any hdone, firstsAfter, firstsAfter, ih hnext]
    | true =>
      have hnext : ∀ v, (done ++ [item]).any (· == v) = true → earlier.any (· == v) = true := by
        intro v hv
        rw [any_append_singleton_of_any hdone] at hv
        exact h v hv
      rw [firstsAfter_cons_of_any hdone, ih hnext, firstsAfter_cons_of_any (h item hdone),
        firstsAfter_congr (any_append_singleton_of_any (h item hdone))]

/-- The same items are there with the later occurrences as without them. -/
lemma any_append_firstsAfter (earlier items : List Value) (v : Value) :
    (earlier ++ firstsAfter earlier items).any (· == v) = (earlier ++ items).any (· == v) := by
  induction items generalizing earlier with
  | nil => rw [firstsAfter]
  | cons item rest ih =>
    have hrest := ih (earlier ++ [item])
    simp only [List.append_assoc, List.singleton_append] at hrest
    cases hany : earlier.any (· == item) with
    | false => rw [firstsAfter_cons_of_not_any hany, hrest]
    | true =>
      rw [firstsAfter_cons_of_any hany, ← hrest]
      simp only [List.any_append, List.any_cons]
      cases hv : item == v with
      | false => rw [Bool.false_or]
      | true => rw [any_of_any_of_beq hany hv, Bool.true_or, Bool.true_or]

/-! ## First occurrences -/

lemma any_firstOccurrences (items : List Value) (v : Value) :
    (firstOccurrences items).any (· == v) = items.any (· == v) :=
  any_append_firstsAfter [] items v

/-- All items are kept if none of them is the same as one before it. -/
lemma firstsAfter_eq_self_iff :
    firstsAfter earlier items = items ↔
      (∀ w ∈ items, earlier.any (· == w) = false) ∧
        items.Pairwise fun v w => (v == w) = false := by
  induction items generalizing earlier with
  | nil => simp [firstsAfter]
  | cons item rest ih =>
    rw [List.forall_mem_cons, List.pairwise_cons]
    cases hany : earlier.any (· == item) with
    | true =>
      refine iff_of_false (fun h => ?_) (by simp)
      rw [firstsAfter_cons_of_any hany] at h
      have hlength := (firstsAfter_sublist (earlier ++ [item]) rest).length_le
      rw [h, List.length_cons] at hlength
      omega
    | false =>
      rw [firstsAfter_cons_of_not_any hany, List.cons.injEq, ih]
      simp only [any_append_singleton, Bool.or_eq_false_iff, true_and, forall_and]
      tauto

/-- A list is that of its first occurrences if its items are different. -/
theorem firstOccurrences_eq_self_iff :
    firstOccurrences items = items ↔ items.Pairwise fun v w => (v == w) = false := by
  rw [firstOccurrences, firstsAfter_eq_self_iff]
  simp

/-- First occurrences have no repetitions. -/
theorem pairwise_firstOccurrences (items : List Value) :
    (firstOccurrences items).Pairwise fun v w => (v == w) = false :=
  firstOccurrences_eq_self_iff.1 (firstsAfter_firstsAfter (fun _ => id) items)

/-- Only the first occurrences of earlier items matter for later ones. -/
theorem firstOccurrences_append_left (xs ys : List Value) :
    firstOccurrences (firstOccurrences xs ++ ys) = firstOccurrences (xs ++ ys) := by
  have hxs : firstOccurrences (firstOccurrences xs) = firstOccurrences xs :=
    firstsAfter_firstsAfter (fun _ => id) xs
  rw [firstOccurrences, firstsAfter_append, ← firstOccurrences, hxs, List.nil_append,
    firstsAfter_congr (any_firstOccurrences xs), firstOccurrences, firstOccurrences,
    firstsAfter_append, List.nil_append]

/-- Only the first occurrences of later items matter behind earlier ones. -/
theorem firstOccurrences_append_right (xs ys : List Value) :
    firstOccurrences (xs ++ firstOccurrences ys) = firstOccurrences (xs ++ ys) := by
  have hnone : ∀ v, ([] : List Value).any (· == v) = true → xs.any (· == v) = true :=
    fun _ h => absurd h Bool.false_ne_true
  have hys : firstsAfter xs (firstOccurrences ys) = firstsAfter xs ys :=
    firstsAfter_firstsAfter hnone ys
  rw [firstOccurrences, firstsAfter_append, List.nil_append, hys, firstOccurrences,
    firstsAfter_append, List.nil_append]

/-- Items that are there already add nothing. -/
theorem firstOccurrences_append_of_any {xs ys : List Value}
    (h : ∀ v ∈ ys, xs.any (· == v) = true) : firstOccurrences (xs ++ ys) = firstOccurrences xs := by
  rw [firstOccurrences, firstsAfter_append, List.nil_append, firstsAfter_eq_nil h, List.append_nil,
    firstOccurrences]

/-! ## Unions -/

/-- Adding the new items adds the first occurrences of those that are not there yet. -/
lemma addNew_eq (done items : List Value) : addNew done items = done ++ firstsAfter done items := by
  induction items generalizing done with
  | nil => rw [addNew, firstsAfter, List.append_nil]
  | cons item rest ih =>
    rw [addNew]
    cases hany : done.any (· == item) with
    | false =>
      rw [if_neg Bool.false_ne_true, ih, firstsAfter_cons_of_not_any hany, List.append_assoc,
        List.singleton_append]
    | true =>
      rw [if_pos rfl, ih, firstsAfter_cons_of_any hany,
        firstsAfter_congr (any_append_singleton_of_any hany)]

/-- A union has the first occurrences of the items of both lists. -/
theorem union_eq (xs ys : List Value) : union xs ys = firstOccurrences (xs ++ ys) := by
  rw [union, addNew_eq, List.nil_append, firstOccurrences]

/-- Lists are joined in either grouping. -/
theorem union_assoc (xs ys zs : List Value) : union (union xs ys) zs = union xs (union ys zs) := by
  calc
    union (union xs ys) zs = firstOccurrences (firstOccurrences (xs ++ ys) ++ zs) := by
      rw [union_eq, union_eq]
    _ = firstOccurrences (xs ++ (ys ++ zs)) := by
      rw [firstOccurrences_append_left, List.append_assoc]
    _ = union xs (union ys zs) := by
      rw [union_eq, union_eq, firstOccurrences_append_right]

/-- A union of several lists has the first occurrences of all their items. -/
theorem foldl_union (first : List Value) {lists : List (List Value)} (h : lists ≠ []) :
    lists.foldl union first = firstOccurrences (first ++ lists.flatten) := by
  induction lists using List.reverseRecOn with
  | nil => exact absurd rfl h
  | append_singleton lists items ih =>
    rw [List.foldl_append, List.foldl_cons, List.foldl_nil, union_eq, List.flatten_append,
      List.flatten_singleton, ← List.append_assoc]
    by_cases hne : lists = []
    · subst hne
      rw [List.foldl_nil, List.flatten_nil, List.append_nil]
    · rw [ih hne, firstOccurrences_append_left]

end ProfileCompiler
