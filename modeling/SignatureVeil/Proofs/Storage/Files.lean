import SignatureVeil.Storage.FileTree

/-!
# Files in a tree

Writing a file changes nothing but the entry at its place, and following the
same path leads to it again.  Where a path leads to a file, the directory that
holds it can be followed to, so there is nothing to make on the way.
-/

namespace SignatureVeil

namespace FileTree

variable {tree : FileTree} {place start : TreePlace} {entry : FileEntry}
  {steps : List PathStep} {path : PathText} {content : ByteArray}

theorem isDirectory_iff :
    tree.isDirectory place = true ↔ tree.entry? place = some .directory := by
  unfold isDirectory
  rcases tree.entry? place with _ | _ | _ <;> simp [FileEntry.isDirectory]

/-! ## Changing an entry -/

theorem entry?_put_self (notRoot : place ≠ []) :
    FileTree.entry? (tree.put place entry) place = some entry := by
  simp [ entry?, put, notRoot]

theorem entry?_put_of_ne {other : TreePlace} (different : other ≠ place) :
    FileTree.entry? (tree.put place entry) other = tree.entry? other := by
  have found : ((place, entry) ::
      tree.entries.filter fun found => found.1 ≠ place).find?
        (fun found => found.1 = other) =
      tree.entries.find? fun found => found.1 = other := by
    rw [List.find?_cons_of_neg (by simpa using different.symm),
      List.find?_filter]
    congr 1
    funext found
    by_cases here : found.1 = other <;> simp [here, different]
  simp only [ entry?, put, found]

/-- Paths lead where they did if what is put was no directory before. -/
theorem follow?_put (notDirectory : tree.isDirectory place = false) {last}
    (leads : tree.follow? start steps = some last) :
    (tree.put place entry).follow? start steps = some last := by
  induction steps generalizing start with
  | nil => exact leads
  | cons step rest ih =>
      simp only [follow?, Option.ite_none_right_eq_some] at leads ⊢
      obtain ⟨directory, leads⟩ := leads
      have different : start ≠ place := by
        rintro rfl
        simp [directory] at notDirectory
      have still : (tree.put place entry).isDirectory start = true := by
        simpa only [isDirectory, entry?_put_of_ne different] using directory
      refine ⟨still, ?_⟩
      cases step with
      | stay | up => exact ih leads
      | down name =>
          simp only [] at leads ⊢
          split at leads
          · exact ih leads
          · contradiction

theorem locate?_put (notDirectory : tree.isDirectory place = false) {last}
    (leads : tree.locate? path = some last) :
    (tree.put place entry).locate? path = some last := by
  simp only [locate?, Option.ite_none_right_eq_some] at leads ⊢
  exact ⟨leads.1, follow?_put notDirectory leads.2⟩

theorem write?_eq_some_iff {written : FileTree} :
    tree.write? path content = some written ↔
      ∃ place, tree.locate? path = some place ∧
        tree.isDirectory place = false ∧
        written = tree.put place (.file content) := by
  unfold write?
  cases tree.locate? path with
  | none => simp
  | some place => simp [@eq_comm _ written]

/-- The root is a directory. -/
theorem ne_nil_of_isDirectory (notDirectory : tree.isDirectory place = false) :
    place ≠ [] := by
  rintro rfl
  simp [isDirectory, entry?, FileEntry.isDirectory] at notDirectory

theorem read?_of_write? {written : FileTree}
    (writes : tree.write? path content = some written) :
    written.read? path = some content := by
  obtain ⟨place, leads, notDirectory, rfl⟩ := write?_eq_some_iff.mp writes
  rw [read?, find?, locate?_put notDirectory leads, Option.bind_some,
    entry?_put_self (ne_nil_of_isDirectory notDirectory)]

theorem read?_eq_some_iff :
    tree.read? path = some content ↔
      ∃ place, tree.locate? path = some place ∧
        tree.entry? place = some (.file content) := by
  rw [← Option.bind_eq_some_iff]
  change _ ↔ tree.find? path = _
  unfold read?
  split
  · rename_i found
    simp [found]
  · rename_i missed
    simpa using missed content

/-! ## Following paths -/

theorem follow?_append {above below : List PathStep} :
    tree.follow? start (above ++ below) =
      (tree.follow? start above).bind fun place =>
        tree.follow? place below := by
  induction above generalizing start with
  | nil => rfl
  | cons step rest ih =>
      simp only [List.cons_append, follow?]
      split
      · cases step with
        | stay | up => exact ih
        | down name =>
            simp only []
            split
            · exact ih
            · rfl
      · rfl

/-- Everything above a place is a directory. -/
def Grounded (tree : FileTree) (place : TreePlace) : Prop :=
  ∀ above, above <+: place → above ≠ place → tree.isDirectory above = true

theorem grounded_root : tree.Grounded [] := by
  intro above isPrefix proper
  exact absurd (List.prefix_nil.mp isPrefix) proper

theorem Grounded.follow? (grounded : tree.Grounded start)
    (leads : tree.follow? start steps = some place) : tree.Grounded place := by
  induction steps generalizing start with
  | nil => exact Option.some.inj leads ▸ grounded
  | cons step rest ih =>
      simp only [FileTree.follow?, Option.ite_none_right_eq_some] at leads
      obtain ⟨directory, leads⟩ := leads
      cases step with
      | stay => exact ih grounded leads
      | up =>
          refine ih (fun above isPrefix proper => ?_) leads
          apply grounded above (isPrefix.trans (List.dropLast_prefix start))
          rintro rfl
          exact proper (isPrefix.eq_of_length_le (by simp))
      | down name =>
          simp only [child?] at leads
          split at leads
          · rename_i inner found
            split at found
            · obtain rfl := Option.some.inj found
              refine ih (fun above isPrefix proper => ?_) leads
              rcases List.prefix_concat_iff.mp isPrefix with same | higher
              · exact absurd same proper
              · by_cases here : above = start
                · exact here ▸ directory
                · exact grounded above higher here
            · contradiction
          · contradiction

/-- The last step to a file is its name. -/
theorem exists_directory_of_file {last : PathStep}
    (leads : tree.follow? [] (steps ++ [last]) = some place)
    (file : tree.entry? place = some (.file content)) :
    (∃ name, last = .down name) ∧ ∃ directory,
      tree.follow? [] steps = some directory ∧
        tree.isDirectory directory = true := by
  rw [follow?_append, Option.bind_eq_some_iff] at leads
  obtain ⟨directory, above, leads⟩ := leads
  simp only [FileTree.follow?, Option.ite_none_right_eq_some] at leads
  obtain ⟨isDirectory, leads⟩ := leads
  refine ⟨?_, directory, above, isDirectory⟩
  cases last with
  | stay =>
      obtain rfl := Option.some.inj leads
      rw [isDirectory_iff, file] at isDirectory
      simp at isDirectory
  | up =>
      obtain rfl := Option.some.inj leads
      have root : directory = [] ∨ directory.dropLast ≠ directory := by
        rcases List.eq_nil_or_concat directory with empty | ⟨_, _, rfl⟩
        · exact .inl empty
        · right
          simp
      have higher : tree.isDirectory directory.dropLast = true := by
        rcases root with rfl | proper
        · exact isDirectory
        · exact grounded_root.follow? above _ (List.dropLast_prefix _) proper
      rw [isDirectory_iff, file] at higher
      simp at higher
  | down name => exact ⟨name, rfl⟩

/-! ## Making directories -/

theorem isDirectory_of_follow?
    (leads : tree.follow? start steps = some place)
    (directory : tree.isDirectory place = true) :
    tree.isDirectory start = true := by
  cases steps with
  | nil => exact Option.some.inj leads ▸ directory
  | cons step rest =>
      simp only [FileTree.follow?, Option.ite_none_right_eq_some] at leads
      exact leads.1

/-- Where the way leads to a directory there is nothing to make. -/
theorem makeWay_eq_self (leads : tree.follow? start steps = some place)
    (directory : tree.isDirectory place = true) :
    tree.makeWay start steps = (tree, true) := by
  induction steps generalizing start with
  | nil => rfl
  | cons step rest ih =>
      simp only [FileTree.follow?, Option.ite_none_right_eq_some] at leads
      obtain ⟨-, leads⟩ := leads
      cases step with
      | stay | up => exact ih leads
      | down name =>
          simp only [makeWay] at leads ⊢
          split at leads
          · rename_i inner found
            have there := isDirectory_iff.mp
              (isDirectory_of_follow? leads directory)
            simp only [found, there]
            exact ih leads
          · contradiction

theorem makeDirectories_eq_self (usable : path.isUsable = true)
    (moves : path.lastStep ≠ .stay)
    (leads : tree.follow? [] path.steps = some place)
    (directory : tree.isDirectory place = true) :
    tree.makeDirectories path = (tree, true) := by
  rw [makeDirectories, if_pos usable]
  split
  · contradiction
  · exact makeWay_eq_self leads directory

theorem follow?_of_stays {stays : List PathStep}
    (idle : ∀ step ∈ stays, step = .stay)
    (leads : tree.follow? start (steps ++ stays) = some place) :
    tree.follow? start steps = some place := by
  rw [follow?_append, Option.bind_eq_some_iff] at leads
  obtain ⟨middle, leads, rest⟩ := leads
  have same : middle = place := by
    clear leads
    induction stays with
    | nil => exact Option.some.inj rest
    | cons step later ih =>
        obtain ⟨rfl, laterIdle⟩ := List.forall_mem_cons.mp idle
        simp only [FileTree.follow?, Option.ite_none_right_eq_some] at rest
        exact ih laterIdle rest.2
  rw [leads, same]

end FileTree

end SignatureVeil
