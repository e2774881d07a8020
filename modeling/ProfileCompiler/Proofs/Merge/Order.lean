import ProfileCompiler.Proofs.Merge.Keys
import ProfileCompiler.Proofs.Merge.Knockout
import ProfileCompiler.Proofs.Merge.Paths
import ProfileCompiler.Proofs.Value.Reordering

/-!
# The order of incoming keys

The entries of an incoming body are merged in the order in which they are written.  So a key
that stands behind its own knockout key is put again after it was removed, and one that stands
before it is gone.  Apart from this the order makes no difference.

A body is consistent if at none of its levels a key stands together with its knockout key
(`Value.Consistent`).  The main result is `deepMerge_reordered_iff`: exactly for consistent bodies
the merge does not depend on the order of the keys and every knockout key removes its key.
-/

namespace ProfileCompiler

open Merge

/-- The knockout key of a key. -/
def knockoutOf (k : String) : Scalar := .text (knockoutMark ++ k)

namespace Value

/-- A mapping in a value that can be reached without going through a knockout key. -/
def Level (v : Value) (path : List Scalar) (source : Entries) : Prop :=
  (∀ k ∈ path, ¬ IsKnockout k) ∧ v.at? path = some (.mapping source)

/-- At no level a key stands together with its knockout key, other than a key that is itself a
knockout key. -/
def Consistent (v : Value) : Prop :=
  ∀ path source, v.Level path source → ∀ k, source.has (knockoutOf k) = true →
    source.has (.text k) = true → IsKnockout (.text k)

variable {v w : Value} {source : Entries} {k : Scalar} {path : List Scalar}

lemma get?_given_eq_some_iff :
    Table.get? k (given (some knockoutMark) source) = some v ↔
      ¬ IsKnockout k ∧ Table.get? k source = some v := by
  rw [get?_given, IsKnockout]
  split <;> simp_all

/-- In a consistent mapping no key that is given is removed. -/
lemma Consistent.removes_of_given (h : (mapping source).Consistent)
    (hgiven : Table.get? k (given (some knockoutMark) source) = some v) :
    removes (some knockoutMark) source k = false := by
  obtain ⟨hkept, hget⟩ := get?_given_eq_some_iff.1 hgiven
  refine Bool.eq_false_iff.2 fun hremoves => ?_
  obtain ⟨s, rfl, hhas⟩ := removes_iff.1 hremoves
  exact hkept (h [] source ⟨List.forall_mem_nil _, rfl⟩ s hhas (by rw [Table.has, hget]; rfl))

/-- What is given in a consistent mapping is consistent. -/
lemma Consistent.of_given (h : (mapping source).Consistent)
    (hgiven : Table.get? k (given (some knockoutMark) source) = some v) : v.Consistent := by
  obtain ⟨hkept, hget⟩ := get?_given_eq_some_iff.1 hgiven
  rintro path inner ⟨hpath, hat⟩
  refine h (k :: path) inner ⟨List.forall_mem_cons.2 ⟨hkept, hpath⟩, ?_⟩
  rw [at?, hget]
  exact hat

end Value

open Value

variable {mark : Option String} {old : Option Value} {dest source : Entries} {k : Scalar}

/-- The entries that an incoming mapping is merged into: those of the old mapping, or none. -/
def oldEntries (old : Option Value) : Entries := (old.bind entries?).getD []

lemma mergedValue_mapping_of_mark (old : Option Value) (source : Entries) :
    mergedValue (some knockoutMark) old (.mapping source) =
      .mapping (mergeEntries (some knockoutMark) (oldEntries old) source) := by
  unfold mergedValue oldEntries
  rcases old with _ | ⟨_ | _ | _⟩ <;> rfl

lemma wellFormed_oldEntries (h : ∀ u, old = some u → u.WellFormed) :
    (mapping (oldEntries old)).WellFormed := by
  rcases old with _ | u
  · exact wellFormed_empty
  · cases u with
    | scalar s => exact wellFormed_empty
    | list items => exact wellFormed_empty
    | mapping entries => exact h _ rfl

/-- A merge into a mapping is the merge of what stands under a key. -/
lemma deepMerge_eq_mergedValue {old : Value} (h : old.isMapping = true) (body : Value) :
    deepMerge (some knockoutMark) old body = mergedValue (some knockoutMark) (some old) body := by
  have hmark : activeMark (some knockoutMark) = some knockoutMark := by decide
  cases old with
  | scalar s => cases h
  | list items => cases h
  | mapping dest =>
    cases body with
    | scalar s => rw [mergedValue_of_not_mapping _ rfl]; rfl
    | list items => rw [mergedValue_of_not_mapping _ rfl]; rfl
    | mapping source => rw [mergedValue_mapping_of_mark, deepMerge, hmark]; rfl

/-- Which keys are removed does not depend on the order of the entries. -/
lemma removes_congr {xs ys : Entries}
    (h : ∀ k, Option.Rel Reordered (Table.get? k xs) (Table.get? k ys)) (k : Scalar) :
    removes (some knockoutMark) xs k = removes (some knockoutMark) ys k := by
  have hhas : ∀ j : Scalar, xs.has j = ys.has j := by
    intro j
    have hj := h j
    unfold Table.has
    generalize Table.get? j xs = v at hj ⊢
    generalize Table.get? j ys = w at hj ⊢
    cases hj <;> rfl
  rw [Bool.eq_iff_iff, removes_iff, removes_iff]
  simp only [hhas]

/-- What is given at a key does not depend on the order of the entries, but for the order within
what is given. -/
lemma given_congr {xs ys : Entries}
    (h : ∀ k, Option.Rel Reordered (Table.get? k xs) (Table.get? k ys)) (k : Scalar) :
    Option.Rel Reordered (Table.get? k (given (some knockoutMark) xs))
      (Table.get? k (given (some knockoutMark) ys)) := by
  rw [get?_given, get?_given]
  split
  · exact .none
  · exact h k

lemma wellFormed_merged (hold : ∀ u, old = some u → u.WellFormed)
    (hsource : (mapping source).WellFormed) :
    (mapping (mergeEntries (some knockoutMark) (oldEntries old) source)).WellFormed :=
  wellFormed_mergeEntries _ _ (wellFormed_oldEntries hold) source
    (entriesWellFormed_iff.2 (wellFormed_mapping.1 hsource).2)

/-- A consistent body merges to the same whatever the order of its keys. -/
theorem same_mergedValue_of_reordered {v w : Value} (hv : v.WellFormed) (hconsistent : v.Consistent)
    (h : Reordered v w) (hold : ∀ u, old = some u → u.WellFormed) :
    (mergedValue (some knockoutMark) old v).same
      (mergedValue (some knockoutMark) old w) = true := by
  induction v using inductionOnMembers generalizing w old with
  | scalar s =>
    cases h
    rw [mergedValue_of_not_mapping old rfl]
    exact (Reordered.refl _).same hv
  | list items =>
    have hsame : (Value.list items).same w = true := h.same hv
    cases h
    rw [mergedValue_of_not_mapping old rfl, mergedValue_of_not_mapping old rfl]
    exact hsame
  | mapping xs ih =>
    obtain ⟨hx, hvalues⟩ := wellFormed_mapping.1 hv
    obtain ⟨ys, rfl, hy, hget⟩ := h.exists_mapping hx
    have hbase := wellFormed_oldEntries hold
    have hdest := (wellFormed_mapping.1 hbase).1
    rw [mergedValue_mapping_of_mark, mergedValue_mapping_of_mark,
      same_mapping_iff (wellFormed_mapping.1 (wellFormed_merged hold hv)).1
        (wellFormed_mapping.1 (wellFormed_merged hold (h.wellFormed hv))).1]
    intro k
    have hgiven := given_congr hget k
    unfold SameAt
    cases hgx : Table.get? k (given (some knockoutMark) xs) with
    | none =>
      -- Neither body gives the key, and both remove it or neither does.
      have hgy : Table.get? k (given (some knockoutMark) ys) = none := by
        rw [hgx] at hgiven
        generalize Table.get? k (given (some knockoutMark) ys) = u at hgiven
        cases hgiven
        rfl
      rw [get?_mergeEntries_of_not_given hdest hgx, get?_mergeEntries_of_not_given hdest hgy,
        ← removes_congr hget]
      split
      · exact .none
      · exact (same_mapping_iff hdest hdest).1 ((Reordered.refl _).same hbase) k
    | some u =>
      obtain ⟨u', hgy, hu⟩ : ∃ u', Table.get? k (given (some knockoutMark) ys) = some u' ∧
          Reordered u u' := by
        rw [hgx] at hgiven
        generalize Table.get? k (given (some knockoutMark) ys) = u' at hgiven
        cases hgiven with
        | some hu => exact ⟨_, rfl, hu⟩
      -- What a consistent body gives it does not remove, so both values are merged into the old.
      have hremoves := hconsistent.removes_of_given hgx
      obtain ⟨-, hxk⟩ := get?_given_eq_some_iff.1 hgx
      obtain ⟨e, he, -, rfl⟩ := Table.exists_of_get? hxk
      rw [get?_mergeEntries_of_given hdest hx hgx hremoves,
        get?_mergeEntries_of_given hdest hy hgy ((removes_congr hget k).symm.trans hremoves)]
      exact .some (ih e he (hvalues e he) (hconsistent.of_given hgx) hu
        fun x hx => wellFormed_of_get? hbase hx)

/-- In the merge of a consistent body a knockout key removes its key, at every level. -/
theorem at?_mergedValue_of_knockout {v : Value} (hv : v.WellFormed) (hconsistent : v.Consistent)
    {path : List Scalar} (hlevel : v.Level path source) {k : String}
    (hk : source.has (knockoutOf k) = true) (hold : ∀ u, old = some u → u.WellFormed) :
    (mergedValue (some knockoutMark) old v).at? (path ++ [.text k]) = none := by
  induction path generalizing v old with
  | nil =>
    obtain rfl : v = .mapping source := Option.some.inj hlevel.2
    have hdest := (wellFormed_mapping.1 (wellFormed_oldEntries hold)).1
    have hremoves : removes (some knockoutMark) source (.text k) = true :=
      removes_iff.2 ⟨k, rfl, hk⟩
    -- A key that is given as well would not be removed.
    have hgiven : Table.get? (.text k) (given (some knockoutMark) source) = none := by
      by_contra hne
      obtain ⟨u, hu⟩ := Option.ne_none_iff_exists'.1 hne
      exact Bool.false_ne_true ((hconsistent.removes_of_given hu).symm.trans hremoves)
    rw [mergedValue_mapping_of_mark, List.nil_append, at?,
      get?_mergeEntries_of_not_given hdest hgiven, if_pos hremoves]
    rfl
  | cons j path ih =>
    obtain ⟨hpath, hat⟩ := hlevel
    obtain ⟨hj, hpath⟩ := List.forall_mem_cons.1 hpath
    cases v with
    | scalar s => cases hat
    | list items => cases hat
    | mapping xs =>
      obtain ⟨u, hu, hat⟩ := Option.bind_eq_some_iff.1 hat
      have hgiven := get?_given_eq_some_iff.2 ⟨hj, hu⟩
      have hbase := wellFormed_oldEntries hold
      rw [mergedValue_mapping_of_mark, List.cons_append, at?,
        get?_mergeEntries_of_given (wellFormed_mapping.1 hbase).1 (wellFormed_mapping.1 hv).1 hgiven
          (hconsistent.removes_of_given hgiven), Option.bind_some]
      exact ih (wellFormed_of_get? hv hu) (hconsistent.of_given hgiven) ⟨hpath, hat⟩
        fun x hx => wellFormed_of_get? hbase hx

/-! ## Writing a key last -/

/-- A value that is given within a body is still there after the merge if the keys that lead to
it are written last. -/
theorem exists_reordered_at? {v w : Value} (hv : v.WellFormed) {path : List Scalar}
    (hpath : ∀ k ∈ path, ¬ IsKnockout k) (hat : v.at? path = some w) :
    ∃ v', Reordered v v' ∧ ∀ old : Option Value, (∀ u, old = some u → u.WellFormed) →
      (mergedValue (some knockoutMark) old v').at? path ≠ none := by
  induction path generalizing v with
  | nil => exact ⟨v, .refl v, fun _ _ => by simp [at?]⟩
  | cons k path ih =>
    obtain ⟨hk, hpath⟩ := List.forall_mem_cons.1 hpath
    cases v with
    | scalar s => cases hat
    | list items => cases hat
    | mapping xs =>
      obtain ⟨u, hu, hat⟩ := Option.bind_eq_some_iff.1 hat
      obtain ⟨u', huu', hmerged⟩ := ih (wellFormed_of_get? hv hu) hpath hat
      obtain ⟨j, hj, hperm⟩ := Table.exists_perm_cons_erase hu
      have hrest := wellFormed_erase hv k
      have hreordered : Reordered (.mapping xs) (.mapping (Table.erase k xs ++ [(j, u')])) := by
        refine .mapping (hperm.trans (List.perm_append_singleton _ _).symm) ?_
        exact (ReorderedEntries.refl fun e _ => .refl e.2).append_singleton j huu'
      refine ⟨_, hreordered, fun old hold => ?_⟩
      have hbase := wellFormed_oldEntries hold
      -- What the other entries leave at the key does not matter, since this one comes after them.
      have hout : knockedOut? (some knockoutMark) j = none := by
        rw [knockedOut?_congr hj]
        simpa [IsKnockout] using hk
      rw [mergedValue_mapping_of_mark, at?,
        get?_mergeEntries_eq_foldl (wellFormed_mapping.1 hbase).1, List.foldl_append,
        ← get?_mergeEntries_eq_foldl (wellFormed_mapping.1 hbase).1]
      simp only [List.foldl_cons, List.foldl_nil, stepAt, hout, hj, if_true, Option.bind_some]
      exact hmerged _ fun x hx => wellFormed_of_get? (wellFormed_merged hold hrest) hx

/-- Of values that are the same, one has something at the end of a path if the other has. -/
lemma at?_eq_none_of_same {v w : Value} (hv : v.WellFormed) (hw : w.WellFormed)
    (h : v.same w = true) {path : List Scalar} (hat : v.at? path = none) : w.at? path = none := by
  induction path generalizing v w with
  | nil => cases hat
  | cons k path ih =>
    cases w with
    | scalar s => rfl
    | list items => rfl
    | mapping ys =>
      cases v with
      | scalar s => simp [same] at h
      | list items => simp [same] at h
      | mapping xs =>
        have hk := (same_mapping_iff (wellFormed_mapping.1 hv).1 (wellFormed_mapping.1 hw).1).1 h k
        unfold SameAt at hk
        rw [at?] at hat ⊢
        cases hy : Table.get? k ys with
        | none => rfl
        | some y =>
          cases hx : Table.get? k xs with
          | none => rw [hx, hy] at hk; cases hk
          | some x =>
            rw [hx, hy] at hk
            rw [hx] at hat
            cases hk with
            | some hsame =>
              exact ih (wellFormed_of_get? hv hx) (wellFormed_of_get? hw hy) hsame hat

/-- Merging does not depend on the order in which the keys of the body are written, at any depth,
and every knockout key removes its key from the mapping that it is merged into, exactly if the
body is consistent.  A body that takes the place of an entry that is no mapping is not merged. -/
theorem deepMerge_reordered_iff {old body : Value} (hold : old.WellFormed)
    (hbody : body.WellFormed) :
    ((∀ body', Reordered body body' →
        (deepMerge (some knockoutMark) old body).same
          (deepMerge (some knockoutMark) old body') = true) ∧
      (old.isMapping = true → ∀ path source k, body.Level path source →
        source.has (knockoutOf k) = true →
          (deepMerge (some knockoutMark) old body).at? (path ++ [.text k]) = none)) ↔
      (old.isMapping = true → body.Consistent) := by
  have hsome : ∀ u, some old = some u → u.WellFormed := by
    rintro u ⟨⟩
    exact hold
  constructor
  · rintro ⟨horder, hremoved⟩ hmapping path source hlevel k hknockout hkey
    by_contra hplain
    -- Written last, the key would stay, so it cannot be removed in the order that is given.
    obtain ⟨u, hu⟩ := Option.isSome_iff_exists.1 hkey
    have hat : body.at? (path ++ [.text k]) = some u := by
      rw [at?_append, hlevel.2, Option.bind_some, at?, hu]
      rfl
    have hpath : ∀ j ∈ path ++ [.text k], ¬ IsKnockout j := by
      intro j hj
      rcases List.mem_append.1 hj with hj | hj
      · exact hlevel.1 j hj
      · rw [List.mem_singleton.1 hj]
        exact hplain
    obtain ⟨body', hreordered, hstays⟩ := exists_reordered_at? hbody hpath hat
    have hnone := hremoved hmapping path source k hlevel hknockout
    have hsame := horder body' hreordered
    refine hstays (some old) hsome ?_
    rw [← deepMerge_eq_mergedValue hmapping]
    exact at?_eq_none_of_same (wellFormed_deepMerge _ hold hbody)
      (wellFormed_deepMerge _ hold (hreordered.wellFormed hbody)) hsame hnone
  · intro hconsistent
    refine ⟨fun body' hreordered => ?_, fun hmapping path source k hlevel hknockout => ?_⟩
    · by_cases hmapping : old.isMapping = true
      · rw [deepMerge_eq_mergedValue hmapping, deepMerge_eq_mergedValue hmapping]
        exact same_mergedValue_of_reordered hbody (hconsistent hmapping) hreordered hsome
      · have hreplaced : ∀ b : Value, deepMerge (some knockoutMark) old b = b := by
          intro b
          cases old with
          | scalar s => rfl
          | list items => rfl
          | mapping dest => exact absurd rfl hmapping
        rw [hreplaced, hreplaced]
        exact hreordered.same hbody
    · rw [deepMerge_eq_mergedValue hmapping]
      exact at?_mergedValue_of_knockout hbody (hconsistent hmapping) hlevel hknockout hsome

/-- A body that removes a key and gives it a new value behind that. -/
def restoring : Value := .ofTexts [("--k", .bool true), ("k", .int 2)]

/-- Merged into a mapping with this key, the body leaves it there with the new value. -/
theorem deepMerge_reordered_iff_restoring :
    (Value.ofTexts [("k", .int 1)]).WellFormed ∧ restoring.WellFormed ∧
      ¬ ((∀ body', Reordered restoring body' →
          (deepMerge (some knockoutMark) (.ofTexts [("k", .int 1)]) restoring).same
            (deepMerge (some knockoutMark) (.ofTexts [("k", .int 1)]) body') = true) ∧
        ((Value.ofTexts [("k", .int 1)]).isMapping = true → ∀ path source k,
          restoring.Level path source → source.has (knockoutOf k) = true →
            (deepMerge (some knockoutMark) (.ofTexts [("k", .int 1)]) restoring).at?
              (path ++ [.text k]) = none)) := by
  have hold : (Value.ofTexts [("k", .int 1)]).WellFormed := by decide
  have hbody : restoring.WellFormed := by decide
  refine ⟨hold, hbody, fun h => ?_⟩
  have hconsistent := (deepMerge_reordered_iff hold hbody).1 h rfl
  have hlevel : restoring.Level [] [(.text "--k", .bool true), (.text "k", .int 2)] :=
    ⟨List.forall_mem_nil _, rfl⟩
  exact absurd (hconsistent _ _ hlevel "k" (by decide) (by decide)) (by decide)

end ProfileCompiler
