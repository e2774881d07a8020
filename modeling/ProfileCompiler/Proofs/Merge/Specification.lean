import ProfileCompiler.Proofs.Merge.Order
import ProfileCompiler.Proofs.Table.Keys

/-!
# What a merge has at every key

The entries of an incoming mapping are taken in one after the other, each of them changing what
the ones before it left.  Where no key comes in together with its own knockout key this leaves
what can be said key by key, without an order: the key is gone, or the value that comes in is
merged with what stood there, or the key is left alone.  The order counts only for the new keys,
which stand behind the old ones that are left (`Merge.KeyByKey`).

The result is `keyByKey_deepMerge`, which says this of every level of a merge: of the mappings
themselves, and of those that are merged with one another below their keys.
-/

namespace ProfileCompiler

namespace Merge

/-- The knockout key of a key.  Only texts have one, and only while a mark is in force. -/
def knockoutKey? (mark : Option String) (k : Scalar) : Option Scalar :=
  match activeMark mark, k with
  | some m, .text s => some (.text (m ++ s))
  | _, _ => none

/-- Whether a key is a knockout key, which is a text that starts with a mark in force. -/
def isKnockoutKey (mark : Option String) (k : Scalar) : Bool :=
  match activeMark mark, k with
  | some m, .text s => m.toList.isPrefixOf s.toList
  | _, _ => false

/-- Whether the entries have the knockout key of a key. -/
def hasKnockoutOf (mark : Option String) (source : Entries) (k : Scalar) : Bool :=
  (knockoutKey? mark k).any fun j => source.has j

/-- Whether the entries have a key together with its knockout key. -/
def hasBoth (mark : Option String) (source : Entries) (k : Scalar) : Bool :=
  source.has k && hasKnockoutOf mark source k

/-- What an incoming value makes of the value at its key: mappings are merged, with an empty one
if there is none at the key, and other values stand as they come in. -/
def valueFrom (mark : Option String) : Option Value → Value → Value
  | some (.mapping dest), .mapping source => deepMerge mark (.mapping dest) (.mapping source)
  | _, .mapping source => deepMerge mark (.mapping []) (.mapping source)
  | _, v => v

/-- The entries that a merge leaves, key by key.  Nothing is said of keys that come in together
with their knockout keys. -/
structure KeyByKey (mark : Option String) (dest source result : Entries) : Prop where
  /-- A key is gone if its knockout key comes in. -/
  removed : ∀ k, hasBoth mark source k = false → hasKnockoutOf mark source k = true →
    result.get? k = none
  /-- At a key that comes in stands what its value makes of the old one. -/
  given : ∀ k v, hasBoth mark source k = false → source.get? k = some v →
    isKnockoutKey mark k = false → result.get? k = some (valueFrom mark (dest.get? k) v)
  /-- All other keys are left alone; knockout keys among the incoming ones make no entry. -/
  left : ∀ k, hasBoth mark source k = false → hasKnockoutOf mark source k = false →
    (source.get? k = none ∨ isKnockoutKey mark k = true) → result.get? k = dest.get? k
  /-- The old keys that are left come first, in their order, and then the new ones in theirs. -/
  keys : (∀ k, hasBoth mark source k = false) →
    result.keys = (dest.keys.filter fun k => !hasKnockoutOf mark source k) ++
      source.keys.filter fun k => !isKnockoutKey mark k && !dest.has k

/-- The incoming mappings that are merged below an incoming mapping, with the paths to them: on
the way there is no knockout key, and no key that comes in together with one. -/
inductive MergedBelow (mark : Option String) : Entries → List Scalar → Entries → Prop
  | here (source : Entries) : MergedBelow mark source [] source
  | under {source entries inner : Entries} {k : Scalar} {path : List Scalar} :
    isKnockoutKey mark k = false → hasBoth mark source k = false →
    source.get? k = some (.mapping entries) → MergedBelow mark entries path inner →
    MergedBelow mark source (k :: path) inner

/-! ## Knockout keys and the keys they remove -/

variable {mark : Option String} {dest source : Entries} {k : Scalar} {v : Value}

lemma isSome_knockedOut? (mark : Option String) (k : Scalar) :
    (knockedOut? (activeMark mark) k).isSome = isKnockoutKey mark k := by
  unfold isKnockoutKey
  cases activeMark mark with
  | none => rfl
  | some m =>
    cases k with
    | text s =>
      rw [knockedOut?, Text.after?, Option.isSome_map]
      cases h : m.toList.isPrefixOf s.toList <;> simp [h]
    | null | bool | int | float => rfl

lemma removes_activeMark (mark : Option String) (source : Entries) (k : Scalar) :
    removes (activeMark mark) source k = hasKnockoutOf mark source k := by
  unfold hasKnockoutOf knockoutKey?
  cases activeMark mark with
  | none => simp [removes, knockedOut?]
  | some m =>
    rw [Bool.eq_iff_iff, removes_iff]
    cases k <;> simp

lemma get?_given_of_isKnockoutKey (h : isKnockoutKey mark k = true) (source : Entries) :
    Table.get? k (Merge.given (activeMark mark) source) = none := by
  rw [get?_given, isSome_knockedOut?, if_pos h]

lemma get?_given_of_not_isKnockoutKey (h : isKnockoutKey mark k = false) (source : Entries) :
    Table.get? k (Merge.given (activeMark mark) source) = Table.get? k source := by
  rw [get?_given, isSome_knockedOut?, h]
  rfl

lemma has_of_get? (h : Table.get? k source = some v) : source.has k = true := by
  rw [Table.has, h]
  rfl

/-- A key that is there and does not come with its knockout key is not removed. -/
lemma hasKnockoutOf_eq_false (hboth : hasBoth mark source k = false)
    (h : Table.get? k source = some v) : hasKnockoutOf mark source k = false := by
  rw [hasBoth, has_of_get? h, Bool.true_and] at hboth
  exact hboth

/-! ## Values -/

/-- An incoming mapping is merged with the old entries, which are none where there was no
mapping.  Without a mark it is taken over in the second case, which makes no difference. -/
lemma mergedValue_mapping_of_distinct (mark old : Option _) (h : Table.Distinct source) :
    mergedValue mark old (.mapping source) =
      .mapping (mergeEntries mark (oldEntries old) source) := by
  have hcopy : mergeEntries none [] source = [] ++ source := mergeEntries_of_distinct h
  unfold mergedValue oldEntries
  rcases old with _ | ⟨_ | _ | _⟩ <;> cases mark <;> simp [Value.entries?, hcopy]

lemma mergedValue_activeMark (mark : Option String) (old : Option Value) (hv : v.WellFormed) :
    mergedValue (activeMark mark) old v = valueFrom mark old v := by
  cases v with
  | scalar s => rw [mergedValue_of_not_mapping old rfl, valueFrom] <;> simp
  | list items => rw [mergedValue_of_not_mapping old rfl, valueFrom] <;> simp
  | mapping source =>
    rw [mergedValue_mapping_of_distinct _ _ (Value.wellFormed_mapping.1 hv).1]
    rcases old with _ | ⟨_ | _ | _⟩ <;> rfl

/-! ## The order of the keys -/

/-- Where no key that is given is removed, a merge leaves the old keys that are not removed in
their order, and behind them the keys that are given and were not there. -/
lemma keys_mergeEntries {mark : Option String} (hdest : Table.Distinct dest)
    (hsource : Table.Distinct source)
    (hboth : ∀ k, (Merge.given mark source).has k = true → removes mark source k = false) :
    (mergeEntries mark dest source).keys =
      (dest.keys.filter fun k => !removes mark source k) ++
        (Merge.given mark source).keys.filter fun k => !dest.has k := by
  induction source generalizing dest with
  | nil =>
    unfold mergeEntries
    simp [removes, Merge.given, Table.keys]
  | cons e rest ih =>
    obtain ⟨j, v⟩ := e
    obtain ⟨hothers, hrest⟩ := Table.distinct_cons.1 hsource
    unfold mergeEntries
    cases hout : knockedOut? mark j with
    | some gone =>
      -- A knockout key erases its key, which is neither given now nor later.
      have hremoves : ∀ k, removes mark ((j, v) :: rest) k = (gone == k || removes mark rest k) :=
        fun k => removes_cons_of_some hout
      rw [given_cons_of_some hout] at hboth ⊢
      simp only [hremoves, Bool.or_eq_false_iff] at hboth ⊢
      rw [ih (hdest.sublist (Table.erase_sublist gone dest)) hrest fun k hk => (hboth k hk).2,
        Table.keys_erase hdest, List.filter_filter]
      congr 1
      · refine List.filter_congr fun k _ => ?_
        rw [Bool.not_or, Bool.and_comm]
      · refine List.filter_congr fun k hk => ?_
        obtain ⟨e, he, rfl⟩ := List.mem_map.1 hk
        have hgone : (gone == e.1) = false := (hboth e.1 (Table.has_iff.2 ⟨e, he, BEq.rfl⟩)).1
        rw [Table.has, Table.get?_erase_of_ne hgone, ← Table.has]
    | none =>
      -- Any other key is put, in its old place or behind all others, and is not removed later.
      have hremoves : ∀ k, removes mark ((j, v) :: rest) k = removes mark rest k :=
        fun k => removes_cons_of_none hout
      rw [given_cons_of_none hout] at hboth ⊢
      simp only [hremoves] at hboth ⊢
      have hj : removes mark rest j = false :=
        hboth j (Table.has_iff.2 ⟨_, List.mem_cons_self, BEq.rfl⟩)
      have hlater : ∀ k, (Merge.given mark rest).has k = true → removes mark rest k = false := by
        intro k hk
        obtain ⟨e, he, hek⟩ := Table.has_iff.1 hk
        exact hboth k (Table.has_iff.2 ⟨e, List.mem_cons_of_mem _ he, hek⟩)
      have hnew : ∀ k ∈ (Merge.given mark rest).keys,
          (dest.put j (mergedValue mark (dest.get? j) v)).has k = dest.has k := by
        intro k hk
        obtain ⟨e, he, rfl⟩ := List.mem_map.1 hk
        have hne : (j == e.1) = false := hothers e (List.mem_filter.1 he).1
        rw [Table.has, Table.get?_put_of_ne hne, ← Table.has]
      rw [ih (Table.distinct_put hdest j _) hrest hlater, Table.keys_put, Table.any_keys,
        List.filter_congr fun k hk => congrArg (!·) (hnew k hk)]
      cases hold : dest.has j with
      | true => simp [Table.keys, hold]
      | false => simp [Table.keys, hold, hj]

/-! ## One level -/

/-- What is given are the incoming keys that are no knockout keys. -/
lemma keys_given (mark : Option String) (source : Entries) :
    (Merge.given (activeMark mark) source).keys =
      source.keys.filter fun k => !isKnockoutKey mark k := by
  simp only [Table.keys, Merge.given, List.filter_map]
  congr 1
  refine List.filter_congr fun e _ => ?_
  rw [Function.comp_apply, ← isSome_knockedOut?, Option.not_isSome]

lemma get?_eq_none_of_hasKnockoutOf (hboth : hasBoth mark source k = false)
    (h : hasKnockoutOf mark source k = true) : Table.get? k source = none := by
  cases hget : Table.get? k source with
  | none => rfl
  | some v =>
    rw [hasKnockoutOf_eq_false hboth hget] at h
    cases h

/-- A merge of mappings without repeated keys is what it should be at every key. -/
theorem keyByKey_mergeEntries (mark : Option String) (hdest : Table.Distinct dest)
    (hsource : (Value.mapping source).WellFormed) :
    KeyByKey mark dest source (mergeEntries (activeMark mark) dest source) where
  removed k hboth hremoved := by
    -- No key comes in together with its knockout key here, so this one does not come in.
    have hgiven : Table.get? k (Merge.given (activeMark mark) source) = none := by
      rw [get?_given, get?_eq_none_of_hasKnockoutOf hboth hremoved, ite_self]
    rw [get?_mergeEntries_of_not_given hdest hgiven, removes_activeMark, if_pos hremoved]
  given k v hboth hv hplain := by
    have hgiven := (get?_given_of_not_isKnockoutKey hplain source).trans hv
    have hremoves : removes (activeMark mark) source k = false := by
      rw [removes_activeMark, hasKnockoutOf_eq_false hboth hv]
    rw [get?_mergeEntries_of_given hdest (Value.wellFormed_mapping.1 hsource).1 hgiven hremoves,
      mergedValue_activeMark _ _ (Value.wellFormed_of_get? hsource hv)]
  left k hboth hleft hother := by
    have hgiven : Table.get? k (Merge.given (activeMark mark) source) = none := by
      rcases hother with hnone | hknockout
      · rw [get?_given, hnone, ite_self]
      · exact get?_given_of_isKnockoutKey hknockout source
    rw [get?_mergeEntries_of_not_given hdest hgiven, removes_activeMark, hleft]
    rfl
  keys hboth := by
    -- Nothing that is given is removed, which is what the order of the keys depends on.
    have hgiven : ∀ k, (Merge.given (activeMark mark) source).has k = true →
        removes (activeMark mark) source k = false := by
      intro k hk
      obtain ⟨v, hv⟩ := Option.isSome_iff_exists.1 hk
      cases hplain : isKnockoutKey mark k with
      | true =>
        rw [get?_given_of_isKnockoutKey hplain] at hv
        cases hv
      | false =>
        rw [get?_given_of_not_isKnockoutKey hplain] at hv
        rw [removes_activeMark, hasKnockoutOf_eq_false (hboth k) hv]
    rw [keys_mergeEntries hdest (Value.wellFormed_mapping.1 hsource).1 hgiven, keys_given,
      List.filter_filter]
    simp only [removes_activeMark]
    congr 1
    exact List.filter_congr fun k _ => Bool.and_comm _ _

/-! ## Every level -/

lemma wellFormed_of_at? {v w : Value} {path : List Scalar} (h : v.WellFormed)
    (hat : v.at? path = some w) : w.WellFormed := by
  induction path generalizing v with
  | nil =>
    cases hat
    exact h
  | cons k path ih =>
    cases v with
    | scalar s => cases hat
    | list items => cases hat
    | mapping entries =>
      obtain ⟨u, hu, hat⟩ := Option.bind_eq_some_iff.1 hat
      exact ih (Value.wellFormed_of_get? h hu) hat

/-- At the end of a path the entries of a value are those below the entries it has itself. -/
lemma oldEntries_at? (old : Option Value) (path : List Scalar) :
    oldEntries ((Value.mapping (oldEntries old)).at? path) =
      oldEntries (old.bind (Value.at? path)) := by
  rcases old with _ | ⟨_ | _ | _⟩ <;> cases path <;> rfl

/-- Below an incoming mapping that is merged, the mappings in it are merged with what the old value
has at the same place, or with nothing. -/
lemma at?_mergeEntries (hdest : (Value.mapping dest).WellFormed)
    (hsource : (Value.mapping source).WellFormed) {path : List Scalar} {inner : Entries}
    (h : MergedBelow mark source path inner) :
    (Value.mapping inner).WellFormed ∧
      (Value.mapping (mergeEntries (activeMark mark) dest source)).at? path =
        some (.mapping (mergeEntries (activeMark mark)
          (oldEntries ((Value.mapping dest).at? path)) inner)) := by
  induction h generalizing dest with
  | here source => exact ⟨hsource, rfl⟩
  | @under source entries inner k path hplain hboth hget _ ih =>
    have hentries : (Value.mapping entries).WellFormed := Value.wellFormed_of_get? hsource hget
    have hold : (Value.mapping (oldEntries (Table.get? k dest))).WellFormed :=
      wellFormed_oldEntries fun u hu => Value.wellFormed_of_get? hdest hu
    obtain ⟨hinner, hat⟩ := ih hold hentries
    have hgiven := (get?_given_of_not_isKnockoutKey hplain source).trans hget
    have hremoves : removes (activeMark mark) source k = false := by
      rw [removes_activeMark, hasKnockoutOf_eq_false hboth hget]
    refine ⟨hinner, ?_⟩
    rw [Value.at?, get?_mergeEntries_of_given (Value.wellFormed_mapping.1 hdest).1
      (Value.wellFormed_mapping.1 hsource).1 hgiven hremoves,
      mergedValue_mapping_of_distinct _ _ (Value.wellFormed_mapping.1 hentries).1,
      Option.bind_some, hat, oldEntries_at?, Value.at?]

end Merge

open Merge

/-- At every level of a merge stands key by key what the incoming mapping of this level makes of
the old one.  Where the old value has no mapping at that place, this is the empty mapping. -/
theorem keyByKey_deepMerge (mark : Option String) {dest source : Entries}
    (hdest : (Value.mapping dest).WellFormed) (hsource : (Value.mapping source).WellFormed)
    {path : List Scalar} {inner : Entries} (hpath : MergedBelow mark source path inner) :
    ∃ result, (deepMerge mark (.mapping dest) (.mapping source)).at? path =
        some (.mapping result) ∧
      KeyByKey mark (oldEntries ((Value.mapping dest).at? path)) inner result := by
  obtain ⟨hinner, hat⟩ := at?_mergeEntries hdest hsource hpath
  have hold : (Value.mapping (oldEntries ((Value.mapping dest).at? path))).WellFormed :=
    wellFormed_oldEntries fun _ hu => wellFormed_of_at? hdest hu
  exact ⟨_, hat, keyByKey_mergeEntries mark (Value.wellFormed_mapping.1 hold).1 hinner⟩

/-- A mapping with a mapping under the key `b`. -/
def layered : Entries :=
  [(.text "a", .int 1), (.text "b", .ofTexts [("c", .int 2), ("d", .int 3)])]

/-- Entries that remove a key, and change the mapping under `b`. -/
def overlay : Entries :=
  [(.text "--a", .null), (.text "b", .ofTexts [("--c", .null), ("e", .ofTexts [("--f", .null)])])]

/-- Below `b` the mappings under this key are merged. -/
theorem keyByKey_deepMerge_overlay :
    (Value.mapping layered).WellFormed ∧ (Value.mapping overlay).WellFormed ∧
      MergedBelow "--" overlay [.text "b"]
        [(.text "--c", .null), (.text "e", .ofTexts [("--f", .null)])] ∧
      ∃ result, (deepMerge "--" (.mapping layered) (.mapping overlay)).at? [.text "b"] =
          some (.mapping result) ∧
        KeyByKey "--" [(.text "c", .int 2), (.text "d", .int 3)]
          [(.text "--c", .null), (.text "e", .ofTexts [("--f", .null)])] result := by
  have hdest : (Value.mapping layered).WellFormed := by decide
  have hsource : (Value.mapping overlay).WellFormed := by decide
  have hbelow : MergedBelow "--" overlay [.text "b"]
      [(.text "--c", .null), (.text "e", .ofTexts [("--f", .null)])] :=
    .under (by decide) (by decide) rfl (.here _)
  exact ⟨hdest, hsource, hbelow, keyByKey_deepMerge "--" hdest hsource hbelow⟩

end ProfileCompiler
