import ProfileCompiler.Proofs.Merge.Union
import ProfileCompiler.Proofs.Value.Reordering

/-!
# Unions in order

A union of two lists consists of the items at the first places (`firstPlaces`) of the one list
followed by the other: those before which no same item stands.  So no two of its items are the
same, and every item of the lists is the same as one of them (`union_ordered`).  This is said of
well-formed items, among which sameness is an equivalence (`Value.equivalence_same`).
-/

namespace ProfileCompiler

/-- The places of a list before which no same item stands. -/
def firstPlaces (items : List Value) : List (Fin items.length) :=
  (List.finRange items.length).filter fun i => ∀ j < i, items[j].same items[i] = false

variable {items xs ys : List Value}

/-- The first occurrences after earlier items, by their places. -/
lemma firstsAfter_eq_map_filter (earlier items : List Value) :
    firstsAfter earlier items =
      ((List.finRange items.length).filter fun i =>
        earlier.any (· == items[i]) = false ∧ ∀ j < i, items[j].same items[i] = false).map
          items.get := by
  induction items generalizing earlier with
  | nil => rfl
  | cons item rest ih =>
    have hplaces : List.finRange (item :: rest).length =
        (0 : Fin (rest.length + 1)) :: (List.finRange rest.length).map Fin.succ :=
      List.finRange_succ
    -- Seen from a later place the first item is one more earlier item.
    have hlater : ∀ i : Fin rest.length,
        ((earlier ++ [item]).any (· == rest[i]) = false ∧
          ∀ j < i, rest[j].same rest[i] = false) ↔
        earlier.any (· == rest[i]) = false ∧
          ∀ j < i.succ, (item :: rest)[j].same rest[i] = false := by
      intro i
      rw [any_append_singleton, Bool.or_eq_false_iff, Fin.forall_fin_succ, and_assoc]
      simp [Value.beq_eq_same]
    rw [hplaces, List.filter_cons, List.filter_map, firstsAfter, ih]
    simp only [hlater]
    cases hany : earlier.any (· == item) with
    | true => simp [hany, Function.comp_def]
    | false => simp [hany, Function.comp_def]

lemma firstOccurrences_eq_map_get (items : List Value) :
    firstOccurrences items = (firstPlaces items).map items.get := by
  rw [firstOccurrences, firstsAfter_eq_map_filter, firstPlaces]
  simp

lemma wellFormed_of_mem_union (h : ∀ v ∈ xs ++ ys, v.WellFormed) {v : Value}
    (hv : v ∈ union xs ys) : v.WellFormed := by
  rw [union_eq] at hv
  exact h v ((firstsAfter_sublist [] (xs ++ ys)).subset hv)

/-- No two items of a union are the same, whichever is compared with the other. -/
lemma pairwise_union (h : ∀ v ∈ xs ++ ys, v.WellFormed) :
    (union xs ys).Pairwise fun v w => v.same w = false ∧ w.same v = false := by
  have hfirst : (union xs ys).Pairwise fun v w => v.same w = false := by
    rw [union_eq]
    exact pairwise_firstOccurrences (xs ++ ys)
  refine hfirst.imp_of_mem fun {v w} hv hw hvw => ⟨hvw, ?_⟩
  have hv := wellFormed_of_mem_union h hv
  have hw := wellFormed_of_mem_union h hw
  by_contra hwv
  rw [Bool.not_eq_false] at hwv
  exact Bool.false_ne_true (hvw.symm.trans (Value.same_symm hw hv hwv))

/-- Every item of the lists is the same as one of the union. -/
lemma exists_mem_union (h : ∀ v ∈ xs ++ ys, v.WellFormed) {v : Value} (hv : v ∈ xs ++ ys) :
    ∃ w ∈ union xs ys, v.same w = true := by
  have hsame : (xs ++ ys).any (· == v) = true :=
    List.any_eq_true.2 ⟨v, hv, Value.same_refl (h v hv)⟩
  rw [← any_firstOccurrences, ← union_eq] at hsame
  obtain ⟨w, hw, hwv⟩ := List.any_eq_true.1 hsame
  exact ⟨w, hw, Value.same_symm (wellFormed_of_mem_union h hw) (h v hv) hwv⟩

/-- A union of decoded values is ordered: it has the items at the first places of the one list
followed by the other, no two of them the same, and each item of the lists is the same as one of
them.  Unions are associative. -/
theorem union_ordered (hx : ∀ v ∈ xs, v.WellFormed) (hy : ∀ v ∈ ys, v.WellFormed) :
    union xs ys = (firstPlaces (xs ++ ys)).map (xs ++ ys).get ∧
      ((union xs ys).Pairwise fun v w => v.same w = false ∧ w.same v = false) ∧
      (∀ v ∈ xs ++ ys, ∃ w ∈ union xs ys, v.same w = true) ∧
      ∀ zs, union (union xs ys) zs = union xs (union ys zs) := by
  have hformed : ∀ v ∈ xs ++ ys, v.WellFormed := List.forall_mem_append.2 ⟨hx, hy⟩
  refine ⟨?_, pairwise_union hformed, fun v hv => exists_mem_union hformed hv, union_assoc xs ys⟩
  rw [union_eq, firstOccurrences_eq_map_get]

/-- One as a float. -/
def floatOne : Value := .scalar (.float (.finite false (Nat.pow 2 52) (-52)))

/-- A truth value, a list with a float and a mapping with keys of two kinds. -/
def spelled : List Value :=
  [.bool true, .list [floatOne], .mapping [(.int 1, .null), (.text "k", .list [.int 0])]]

/-- The same items in another order and in other spellings, and a text. -/
def respelled : List Value :=
  [.mapping [(.text "k", .list [.bool false]), (.bool true, .null)], floatOne, .text "1",
    .list [.int 1]]

/-- Of the other spellings only the text, at the last place but one, is new. -/
theorem union_ordered_respelled :
    (∀ v ∈ spelled, v.WellFormed) ∧ (∀ v ∈ respelled, v.WellFormed) ∧
      (firstPlaces (spelled ++ respelled)).map Fin.val = [0, 1, 2, 5] ∧
      union spelled respelled =
        (firstPlaces (spelled ++ respelled)).map (spelled ++ respelled).get ∧
      union (union spelled respelled) spelled = union spelled (union respelled spelled) := by
  have hx : ∀ v ∈ spelled, v.WellFormed := by decide
  have hy : ∀ v ∈ respelled, v.WellFormed := by decide
  have hplaces : (firstPlaces (spelled ++ respelled)).map Fin.val = [0, 1, 2, 5] := by
    decide +kernel
  obtain ⟨hunion, -, -, hassoc⟩ := union_ordered hx hy
  exact ⟨hx, hy, hplaces, hunion, hassoc spelled⟩

end ProfileCompiler
