import ProfileCompiler.Proofs.Files.Tree

/-!
# Building a tree

A tree to which directories and files are added stays proper (`FileTree.proper_addDirectory`,
`FileTree.proper_addFile`).  On the way to what is added directories are made where there are none
(`FileTree.Grows`), and no file may be in the way (`FileTree.Clear`).
-/

namespace ProfileCompiler

namespace FileTree

variable {t t' t'' : FileTree} {place parent q : Place} {entry : FileEntry}

lemma proper_nil : Proper ([] : FileTree) where
  distinct := Table.distinct_nil
  inDirectory h := by cases h
  plain h := by cases h

/-- A tree stays proper if something is put into a directory there, but for a file in the place of
a directory. -/
lemma Proper.put (hproper : t.Proper) (hplain : ∀ name ∈ place, IsPlain name)
    (haround : ∀ parent name, place = parent ++ [name] → t.isDirectoryAt parent = true)
    (hentry : entry = .directory ∨ t.isDirectoryAt place = false) :
    Proper (t.put place entry) where
  distinct := Table.distinct_put hproper.distinct place entry
  inDirectory := by
    intro parent name h
    have hparent : t.isDirectoryAt parent = true := by
      rw [Table.has, Table.get?_put] at h
      split at h
      · rename_i hplace
        exact haround parent name (eq_of_beq hplace)
      · exact hproper.inDirectory h
    rw [isDirectoryAt_iff, Table.get?_put]
    split
    · rename_i hplace
      rw [← eq_of_beq hplace] at hparent
      obtain rfl | hfile := hentry
      · rfl
      · cases hfile.symm.trans hparent
    · exact isDirectoryAt_iff.1 hparent
  plain := by
    intro q h
    rw [Table.has, Table.get?_put] at h
    split at h
    · rename_i hplace
      rwa [← eq_of_beq hplace]
    · exact hproper.plain h

/-! ## What is made on the way -/

/-- A tree has grown into another one by directories on the way to a place. -/
def Grows (place : Place) (t t' : FileTree) : Prop :=
  ∀ q, t'.get? q = t.get? q ∨ t'.get? q = some .directory ∧ q <+: place

lemma Grows.trans (h : Grows place t t') (h' : Grows place t' t'') : Grows place t t'' := by
  intro q
  obtain hq' | hq' := h' q
  · rw [hq']
    exact h q
  · exact .inr hq'

lemma Grows.isDirectoryAt (h : Grows place t t') (hq : t.isDirectoryAt q = true) :
    t'.isDirectoryAt q = true := by
  rw [isDirectoryAt_iff] at hq ⊢
  obtain hsame | ⟨hdirectory, -⟩ := h q
  · rw [hsame, hq]
  · exact hdirectory

/-- No file is in the way to a place. -/
def Clear (t : FileTree) (place : Place) : Prop :=
  ∀ q, q <+: place → t.has q = true → t.isDirectoryAt q = true

lemma Clear.of_grows (h : Clear t place) (hgrows : Grows place t t') : Clear t' place := by
  intro q hprefix hhas
  obtain hsame | ⟨hdirectory, -⟩ := hgrows q
  · rw [Table.has, hsame] at hhas
    exact hgrows.isDirectoryAt (h q hprefix hhas)
  · exact isDirectoryAt_iff.2 hdirectory

/-! ## Directories -/

lemma outer_append (parent : Place) (name : String) :
    outer (parent ++ [name]) = outer parent ++ [parent] := by
  induction parent with
  | nil => rfl
  | cons first rest ih =>
    rw [List.cons_append, outer, outer, ih, List.map_append]
    rfl

lemma prefix_of_mem_outer (h : q ∈ outer place) : q <+: place := by
  induction place using List.reverseRecOn with
  | nil => cases h
  | append_singleton parent name ih =>
    have hparent : q <+: parent := by
      rw [outer_append, List.mem_append, List.mem_singleton] at h
      obtain h | rfl := h
      · exact ih h
      · exact List.prefix_refl _
    exact hparent.trans (List.prefix_append ..)

/-- The tree with a directory at a place where there is nothing. -/
def made (t : FileTree) (place : Place) : FileTree :=
  if t.has place then t else t.put place .directory

lemma addDirectory_append (t : FileTree) (parent : Place) (name : String) :
    t.addDirectory (parent ++ [name]) = (t.addDirectory parent).made (parent ++ [name]) := by
  unfold addDirectory
  rw [outer_append, List.foldl_append]
  rfl

lemma proper_made (hproper : t.Proper) (hplain : ∀ name ∈ place, IsPlain name)
    (haround : ∀ parent name, place = parent ++ [name] → t.isDirectoryAt parent = true) :
    Proper (t.made place) := by
  unfold made
  split
  · exact hproper
  · exact hproper.put hplain haround (.inl rfl)

lemma grows_made (t : FileTree) (hq : q <+: place) : Grows place t (t.made q) := by
  intro r
  unfold made
  split
  · exact .inl rfl
  · rw [Table.get?_put]
    split
    · rename_i heq
      rw [← eq_of_beq heq]
      exact .inr ⟨rfl, hq⟩
    · exact .inl rfl

lemma isDirectoryAt_made (h : t.has place = true → t.isDirectoryAt place = true) :
    (t.made place).isDirectoryAt place = true := by
  unfold made
  split
  · exact h ‹_›
  · rw [isDirectoryAt_iff, Table.get?_put_self]

/-- A directory can be added to a proper tree if no file is in the way. -/
theorem proper_addDirectory (hproper : t.Proper) (hplain : ∀ name ∈ place, IsPlain name)
    (hclear : Clear t place) :
    Proper (t.addDirectory place) ∧ Grows place t (t.addDirectory place) ∧
      (t.addDirectory place).isDirectoryAt place = true := by
  induction place using List.reverseRecOn with
  | nil =>
    show Proper (t.made []) ∧ Grows [] t (t.made []) ∧ (t.made []).isDirectoryAt [] = true
    refine ⟨proper_made hproper hplain ?_, grows_made t (List.prefix_refl _),
      isDirectoryAt_made (hclear [] (List.prefix_refl _))⟩
    intro parent name h
    simp at h
  | append_singleton parent name ih =>
    have hprefix : parent <+: parent ++ [name] := List.prefix_append ..
    obtain ⟨hproper', hgrows, hparent⟩ := ih
      (fun n hn => hplain n (List.mem_append_left _ hn))
      fun q hq => hclear q (hq.trans hprefix)
    have hgrows' : Grows (parent ++ [name]) t (t.addDirectory parent) := fun q =>
      (hgrows q).imp_right fun ⟨hdirectory, hq⟩ => ⟨hdirectory, hq.trans hprefix⟩
    rw [addDirectory_append]
    refine ⟨proper_made hproper' hplain ?_, hgrows'.trans (grows_made _ (List.prefix_refl _)),
      isDirectoryAt_made (hclear.of_grows hgrows' _ (List.prefix_refl _))⟩
    intro parent' name' heq
    obtain ⟨rfl, -⟩ := List.append_inj' heq rfl
    exact hparent

/-- Directories can be added one after the other. -/
lemma proper_addDirectories {places : List Place} (hplaces : ∀ q ∈ places, q <+: place)
    (hproper : t.Proper) (hplain : ∀ name ∈ place, IsPlain name) (hclear : Clear t place) :
    Proper (places.foldl addDirectory t) ∧ Grows place t (places.foldl addDirectory t) ∧
      ∀ q ∈ places, (places.foldl addDirectory t).isDirectoryAt q = true := by
  induction places generalizing t with
  | nil => exact ⟨hproper, fun _ => .inl rfl, fun _ h => by cases h⟩
  | cons q rest ih =>
    obtain ⟨hq, hrest⟩ := List.forall_mem_cons.1 hplaces
    obtain ⟨hproper', hgrows, hdirectory⟩ := proper_addDirectory hproper
      (fun n hn => hplain n (hq.subset hn)) fun r hr => hclear r (hr.trans hq)
    have hgrows' : Grows place t (t.addDirectory q) := fun r =>
      (hgrows r).imp_right fun ⟨hr, hprefix⟩ => ⟨hr, hprefix.trans hq⟩
    obtain ⟨hproper'', hgrows'', hall⟩ := ih hrest hproper' (hclear.of_grows hgrows')
    exact ⟨hproper'', hgrows'.trans hgrows'',
      List.forall_mem_cons.2 ⟨hgrows''.isDirectoryAt hdirectory, hall⟩⟩

/-- A file can be added to a proper tree if no file is in the way and no directory in its place. -/
theorem proper_addFile {name : String} (hproper : t.Proper)
    (hplain : ∀ n ∈ parent ++ [name], IsPlain n) (hclear : Clear t parent)
    (hfree : t.isDirectoryAt (parent ++ [name]) = false) (bytes : ByteArray) :
    Proper (t.addFile (parent ++ [name]) bytes) := by
  have hplaces : ∀ q ∈ outer (parent ++ [name]), q <+: parent := by
    intro q hq
    rw [outer_append, List.mem_append, List.mem_singleton] at hq
    obtain hq | rfl := hq
    · exact prefix_of_mem_outer hq
    · exact List.prefix_refl _
  obtain ⟨hproper', hgrows, hall⟩ := proper_addDirectories hplaces hproper
    (fun n hn => hplain n (List.mem_append_left _ hn)) hclear
  refine hproper'.put hplain ?_ (.inr ?_)
  · intro parent' name' heq
    obtain ⟨rfl, -⟩ := List.append_inj' heq rfl
    exact hall parent (by rw [outer_append]; simp)
  · rw [← Bool.not_eq_true, isDirectoryAt_iff] at hfree ⊢
    obtain hsame | ⟨-, hprefix⟩ := hgrows (parent ++ [name])
    · rwa [hsame]
    · have hlength := hprefix.length_le
      rw [List.length_append, List.length_singleton] at hlength
      omega

end FileTree

end ProfileCompiler
