import Mathlib.Tactic.Common
import ProfileCompiler.Value.Table

/-!
# Reading tables after writing

What a table holds at a key after something has been put: `get?_put` for one entry and
`get?_putAll` for many, of which the last at that key counts.  Keys are compared by `==`, so
the laws ask for an equivalence and not for equality.

A table in which no two keys are the same (`Table.Distinct`) stays so under `put`, and reads
the same from either end (`get?_reverse`); erasing keys of it leaves the entries at other keys
(`eraseAll_eq_filter`).
-/

namespace ProfileCompiler

namespace Table

variable {κ α : Type} [BEq κ]

@[simp] lemma get?_nil (k : κ) : get? k ([] : Table κ α) = none := rfl

lemma get?_cons (k k' : κ) (v : α) (t : Table κ α) :
    get? k ((k', v) :: t) = if k' == k then some v else get? k t := rfl

lemma get?_append (k : κ) (s t : Table κ α) :
    get? k (s ++ t) = (get? k s).or (get? k t) := by
  induction s with
  | nil => rfl
  | cons e s ih =>
    rw [List.cons_append, get?_cons, get?_cons, ih]
    split <;> rfl

lemma get?_eq_none_iff (k : κ) (t : Table κ α) :
    get? k t = none ↔ ∀ e ∈ t, (e.1 == k) = false := by
  induction t with
  | nil => simp
  | cons e t ih =>
    rw [get?_cons, List.forall_mem_cons, ← ih]
    by_cases h : (e.1 == k) = true
    · simp [h]
    · simp [h]

lemma has_iff {k : κ} {t : Table κ α} : has k t = true ↔ ∃ e ∈ t, (e.1 == k) = true := by
  rw [has, Option.isSome_iff_ne_none, ne_eq, get?_eq_none_iff]
  simp

/-- What is read at a key is the value of an entry with that key. -/
lemma exists_of_get? {k : κ} {v : α} {t : Table κ α} (h : get? k t = some v) :
    ∃ e ∈ t, (e.1 == k) = true ∧ e.2 = v := by
  induction t with
  | nil => cases h
  | cons e t ih =>
    rw [get?_cons] at h
    split at h
    · rename_i hk
      exact ⟨e, List.mem_cons_self, hk, Option.some.inj h⟩
    · obtain ⟨a, ha, hak, hav⟩ := ih h
      exact ⟨a, List.mem_cons_of_mem _ ha, hak, hav⟩

lemma erase_sublist (k : κ) (t : Table κ α) : (erase k t).Sublist t := by
  induction t with
  | nil => exact List.Sublist.refl []
  | cons e t ih =>
    unfold erase
    split
    · exact List.sublist_cons_self _ _
    · exact ih.cons_cons _

/-- The entries of a table after putting are old ones, and one with the value that was put, under
its key or under the old spelling of it. -/
lemma mem_put {k : κ} {v : α} {t : Table κ α} {e : κ × α} (h : e ∈ put k v t) :
    e ∈ t ∨ e.2 = v ∧ (e.1 = k ∨ ∃ a ∈ t, a.1 = e.1) := by
  induction t with
  | nil =>
    obtain rfl : e = (k, v) := by simpa [put] using h
    exact Or.inr ⟨rfl, Or.inl rfl⟩
  | cons a t ih =>
    unfold put at h
    split at h
    · rcases List.mem_cons.1 h with rfl | h
      · exact Or.inr ⟨rfl, Or.inr ⟨_, List.mem_cons_self, rfl⟩⟩
      · exact Or.inl (List.mem_cons_of_mem _ h)
    · rcases List.mem_cons.1 h with rfl | h
      · exact Or.inl List.mem_cons_self
      · rcases ih h with h | ⟨hv, hk | ⟨b, hb, heq⟩⟩
        · exact Or.inl (List.mem_cons_of_mem _ h)
        · exact Or.inr ⟨hv, Or.inl hk⟩
        · exact Or.inr ⟨hv, Or.inr ⟨b, List.mem_cons_of_mem _ hb, heq⟩⟩

@[simp] lemma distinct_nil : Distinct ([] : Table κ α) := List.Pairwise.nil

lemma distinct_cons {e : κ × α} {t : Table κ α} :
    Distinct (e :: t) ↔ (∀ a ∈ t, (e.1 == a.1) = false) ∧ Distinct t := List.pairwise_cons

lemma distinct_put {t : Table κ α} (h : Distinct t) (k : κ) (v : α) : Distinct (put k v t) := by
  induction t with
  | nil => simp [put, distinct_cons]
  | cons a t ih =>
    obtain ⟨ha, ht⟩ := distinct_cons.1 h
    unfold put
    split
    · exact distinct_cons.2 ⟨ha, ht⟩
    · rename_i hne
      refine distinct_cons.2 ⟨fun e he => ?_, ih ht⟩
      rcases mem_put he with hmem | ⟨-, hk | ⟨b, hb, heq⟩⟩
      · exact ha e hmem
      · rw [hk]
        exact Bool.eq_false_iff.2 hne
      · rw [← heq]
        exact ha b hb

/-- Putting what stands there already changes nothing. -/
lemma put_of_get? {k : κ} {v : α} {t : Table κ α} (h : get? k t = some v) : put k v t = t := by
  induction t with
  | nil => cases h
  | cons e t ih =>
    obtain ⟨j, w⟩ := e
    rw [get?_cons] at h
    unfold put
    split at h
    · rename_i hj
      rw [if_pos hj, Option.some.inj h]
    · rename_i hj
      rw [if_neg hj, ih h]

/-- A new key is put at the end. -/
lemma put_of_get?_eq_none {k : κ} {t : Table κ α} (h : get? k t = none) (v : α) :
    put k v t = t ++ [(k, v)] := by
  induction t with
  | nil => rfl
  | cons e t ih =>
    obtain ⟨j, w⟩ := e
    rw [get?_cons] at h
    unfold put
    split at h
    · cases h
    · rename_i hj
      rw [if_neg hj, ih h]
      rfl

/-- The table after putting entries one after the other. -/
def putAll (t : Table κ α) (entries : List (κ × α)) : Table κ α :=
  entries.foldl (fun t e => t.put e.1 e.2) t

@[simp] lemma putAll_nil (t : Table κ α) : t.putAll [] = t := rfl

@[simp] lemma putAll_cons (t : Table κ α) (e : κ × α) (es : List (κ × α)) :
    t.putAll (e :: es) = (t.put e.1 e.2).putAll es := rfl

lemma putAll_append (t : Table κ α) (es es' : List (κ × α)) :
    t.putAll (es ++ es') = (t.putAll es).putAll es' := List.foldl_append

variable [EquivBEq κ]

/-- In a table with distinct keys the key of the first entry stands nowhere else. -/
lemma get?_eq_none_of_distinct {e : κ × α} {t : Table κ α} (h : Distinct (e :: t)) {k : κ}
    (hk : (e.1 == k) = true) : get? k t = none := by
  refine (get?_eq_none_iff k t).2 fun a ha => Bool.eq_false_iff.2 fun hak => ?_
  have hea : (e.1 == a.1) = true := BEq.trans hk (BEq.symm hak)
  exact Bool.false_ne_true (((distinct_cons.1 h).1 a ha).symm.trans hea)

/-! ## One entry -/

/-- Putting at a key changes what is read there and nowhere else. -/
lemma get?_put (k k' : κ) (v : α) (t : Table κ α) :
    get? k' (put k v t) = if k == k' then some v else get? k' t := by
  induction t with
  | nil => rfl
  | cons e t ih =>
    obtain ⟨j, w⟩ := e
    unfold put
    by_cases hj : (j == k) = true
    · rw [if_pos hj, get?_cons, get?_cons, BEq.congr_left hj]
      split <;> rfl
    · rw [if_neg hj, get?_cons, get?_cons, ih]
      by_cases hk : (k == k') = true
      · have hjk : ¬ (j == k') = true := fun h => hj (BEq.trans h (BEq.symm hk))
        simp only [if_neg hjk, if_pos hk]
      · simp only [if_neg hk]

/-- Keys that are the same read the same. -/
lemma get?_congr {k k' : κ} (h : (k == k') = true) (t : Table κ α) : get? k t = get? k' t := by
  induction t with
  | nil => rfl
  | cons e t ih =>
    obtain ⟨j, w⟩ := e
    rw [get?_cons, get?_cons, ih, BEq.congr_right h]

@[simp] lemma get?_put_self (k : κ) (v : α) (t : Table κ α) : get? k (put k v t) = some v := by
  rw [get?_put, if_pos BEq.rfl]

lemma get?_put_of_ne {k k' : κ} (h : (k == k') = false) (v : α) (t : Table κ α) :
    get? k' (put k v t) = get? k' t := by
  rw [get?_put, h]
  rfl

/-- Erasing a key changes nothing at other keys. -/
lemma get?_erase_of_ne {k k' : κ} (h : (k == k') = false) (t : Table κ α) :
    get? k' (erase k t) = get? k' t := by
  induction t with
  | nil => rfl
  | cons e t ih =>
    obtain ⟨j, w⟩ := e
    rw [get?_cons]
    unfold erase
    by_cases hj : (j == k) = true
    · have hjk : ¬ (j == k') = true := fun hjk =>
        Bool.false_ne_true (h.symm.trans (BEq.trans (BEq.symm hj) hjk))
      rw [if_pos hj, if_neg hjk]
    · rw [if_neg hj, get?_cons, ih]

/-- Erasing a key of a table with distinct keys leaves nothing there. -/
lemma get?_erase_self {t : Table κ α} (h : Distinct t) (k : κ) : get? k (erase k t) = none := by
  induction t with
  | nil => rfl
  | cons e t ih =>
    obtain ⟨j, w⟩ := e
    unfold erase
    by_cases hj : (j == k) = true
    · rw [if_pos hj]
      exact get?_eq_none_of_distinct h hj
    · rw [if_neg hj, get?_cons, if_neg hj, ih (distinct_cons.1 h).2]

/-- Erasing a key changes what is read there and nowhere else. -/
lemma get?_erase {t : Table κ α} (h : Distinct t) (k k' : κ) :
    get? k' (erase k t) = if k == k' then none else get? k' t := by
  by_cases hk : (k == k') = true
  · rw [if_pos hk, ← get?_congr hk, get?_erase_self h]
  · rw [if_neg hk, get?_erase_of_ne (Bool.eq_false_iff.2 hk)]

/-- In a table with distinct keys every entry is read at its key. -/
lemma get?_of_mem {t : Table κ α} (h : Distinct t) {e : κ × α} (he : e ∈ t) :
    get? e.1 t = some e.2 := by
  induction t with
  | nil => cases he
  | cons a t ih =>
    rw [get?_cons]
    rcases List.mem_cons.1 he with rfl | he
    · rw [if_pos BEq.rfl]
    · rw [(distinct_cons.1 h).1 e he, ih (distinct_cons.1 h).2 he]
      rfl

/-- In a table with distinct keys an entry is known by its key. -/
lemma eq_of_mem_of_beq {t : Table κ α} (h : Distinct t) {a b : κ × α} (ha : a ∈ t) (hb : b ∈ t)
    (hab : (a.1 == b.1) = true) : a = b := by
  induction t with
  | nil => cases ha
  | cons e t ih =>
    obtain ⟨he, ht⟩ := distinct_cons.1 h
    rcases List.mem_cons.1 ha with rfl | hat
    · rcases List.mem_cons.1 hb with rfl | hbt
      · rfl
      · cases (he b hbt).symm.trans hab
    · rcases List.mem_cons.1 hb with rfl | hbt
      · cases (he a hat).symm.trans (BEq.symm hab)
      · exact ih ht hat hbt

/-- Erasing a key of a table with distinct keys leaves the entries at other keys. -/
lemma erase_eq_filter {t : Table κ α} (h : Distinct t) (k : κ) :
    erase k t = t.filter fun e => e.1 != k := by
  induction t with
  | nil => rfl
  | cons e t ih =>
    obtain ⟨he, ht⟩ := distinct_cons.1 h
    obtain ⟨j, w⟩ := e
    unfold erase
    by_cases hj : (j == k) = true
    · have hrest : ∀ a ∈ t, (a.1 != k) = true := by
        intro a ha
        have hja : (j == a.1) = false := he a ha
        rw [bne, BEq.comm, ← BEq.congr_left hj, hja]
        rfl
      rw [if_pos hj, List.filter_cons_of_neg (by simp [bne, hj]), List.filter_eq_self.2 hrest]
    · rw [if_neg hj, List.filter_cons_of_pos (by simp [bne, hj]), ih ht]

omit [EquivBEq κ] in
lemma append_eq_put (k : κ) (v : α) (t : Table κ (List α)) :
    append k v t = put k ((get? k t).getD [] ++ [v]) t := by
  unfold append
  cases get? k t <;> rfl

/-- A value is added to the list that its key holds, and to no other list. -/
lemma getD_get?_append (k k' : κ) (v : α) (t : Table κ (List α)) :
    (get? k' (append k v t)).getD [] =
      (get? k' t).getD [] ++ if k == k' then [v] else [] := by
  rw [append_eq_put, get?_put]
  by_cases hk : (k == k') = true
  · rw [if_pos hk, if_pos hk, get?_congr hk t]
    rfl
  · rw [if_neg hk, if_neg hk, List.append_nil]

/-- Of two values put at one key the second stays. -/
@[simp] lemma put_put (k : κ) (v w : α) (t : Table κ α) : put k w (put k v t) = put k w t := by
  induction t with
  | nil => simp [put]
  | cons e t ih =>
    obtain ⟨j, u⟩ := e
    by_cases hj : (j == k) = true
    · simp [put, hj]
    · simp [put, hj, ih]

/-- The entries at other keys, and their order, do not depend on what is put at a key. -/
lemma filter_put (k : κ) (v : α) (t : Table κ α) :
    (put k v t).filter (fun e => e.1 != k) = t.filter (fun e => e.1 != k) := by
  induction t with
  | nil => simp [put, bne]
  | cons e t ih =>
    obtain ⟨j, u⟩ := e
    by_cases hj : (j == k) = true
    · simp [put, hj, bne]
    · simp only [bne] at ih
      simp [put, hj, bne, ih]

/-! ## Many entries -/

/-- Of the entries put at a key the last is read. -/
lemma get?_putAll (k : κ) (t : Table κ α) (es : List (κ × α)) :
    get? k (t.putAll es) = (get? k es.reverse).or (get? k t) := by
  induction es generalizing t with
  | nil => rfl
  | cons e es ih =>
    rw [putAll_cons, ih, get?_put, List.reverse_cons, get?_append, Option.or_assoc, get?_cons,
      get?_nil]
    split <;> rfl

/-- The table after erasing keys one after the other. -/
def eraseAll (t : Table κ α) (ks : List κ) : Table κ α := ks.foldl (fun t k => t.erase k) t

lemma eraseAll_eq_filter {t : Table κ α} (h : Distinct t) (ks : List κ) :
    t.eraseAll ks = t.filter fun e => !ks.any (e.1 == ·) := by
  induction ks generalizing t with
  | nil => exact (List.filter_eq_self.2 fun _ _ => rfl).symm
  | cons k ks ih =>
    show (t.erase k).eraseAll ks = _
    rw [ih (h.sublist (erase_sublist k t)), erase_eq_filter h, List.filter_filter]
    congr 1
    funext e
    rw [List.any_cons, Bool.not_or, Bool.and_comm]
    rfl

/-- Erasing the keys of the entries that fail a test leaves those that pass it. -/
lemma eraseAll_keys_filter {t : Table κ α} (h : Distinct t) (passes : κ × α → Bool) :
    t.eraseAll (keys (t.filter fun e => !passes e)) = t.filter passes := by
  rw [eraseAll_eq_filter h]
  refine List.filter_congr fun e he => ?_
  rw [Bool.eq_iff_iff, Bool.not_eq_true', List.any_eq_false]
  constructor
  · intro hkept
    by_contra hfails
    refine hkept e.1 (List.mem_map.2 ⟨e, ?_, rfl⟩) BEq.rfl
    exact List.mem_filter.2 ⟨he, by simpa using hfails⟩
  · intro hpasses k hk hek
    obtain ⟨a, ha, rfl⟩ := List.mem_map.1 hk
    obtain ⟨hat, hfails⟩ := List.mem_filter.1 ha
    obtain rfl := eq_of_mem_of_beq h he hat hek
    rw [hpasses] at hfails
    cases hfails

/-- A table with distinct keys reads the same from either end. -/
lemma get?_reverse {t : Table κ α} (h : Distinct t) (k : κ) : get? k t.reverse = get? k t := by
  induction t with
  | nil => rfl
  | cons e t ih =>
    obtain ⟨he, ht⟩ := distinct_cons.1 h
    rw [List.reverse_cons, get?_append, ih ht, get?_cons, get?_cons, get?_nil]
    by_cases hk : (e.1 == k) = true
    · simp only [get?_eq_none_of_distinct h hk, if_pos hk, Option.none_or]
    · simp only [if_neg hk, Option.or_none]

end Table

end ProfileCompiler
