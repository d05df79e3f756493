/-
What a written file changes. Writing puts one file at the place that its path
leads to. The place is no directory, so every path that was looked up before
still leads where it led, a directory stays one, and only the one file is
another. A file of another name is therefore still read as it was
(`read_of_write`), and the written one is read as it was written
(`read_written`).

Where a path leads tells its last name, unless it leads to a directory
(`exists_name`); that is how files of different names are known to be at
different places.
-/
import StackMachine.Command.Directory

namespace StackMachine.Command.Directory

variable {d d' : Directory} {place start target : List String}
  {names : List String} {path other name : String}
  {bytes contents : List UInt8}

-- ============================================================ one file put

/-- Taking away one file leaves the others where they were. -/
theorem lookup_filter_ne {files : List (List String × List UInt8)}
    (h : target ≠ place) :
    (files.filter (·.1 ≠ place)).lookup target = files.lookup target := by
  induction files with
  | nil => rfl
  | cons f files ih =>
      by_cases hf : f.1 = place
      · have hkey : (target == f.1) = false := by
          rw [hf]
          exact beq_false_of_ne h
        rw [List.filter_cons_of_neg (by simp [hf]), ih, List.lookup_cons, hkey]
      · rw [List.filter_cons_of_pos (by simp [hf]), List.lookup_cons,
          List.lookup_cons, ih]

/-- Putting a file in one place does not change the others. -/
theorem file?_put_of_ne (h : target ≠ place) :
    (d.put place bytes).file? target = d.file? target := by
  have hlast : [(place, bytes)].lookup target = none := by
    rw [List.lookup_cons, beq_false_of_ne h]
    rfl
  unfold file? put
  simp only [List.lookup_append, lookup_filter_ne h, hlast, Option.or_none]

/-- A file is found where it was put, the devices apart. -/
theorem file?_put_self (hnull : place ≠ nullDevice)
    (hfull : place ≠ fullDevice) :
    (d.put place bytes).file? place = some bytes := by
  have hnone : (d.files.filter (·.1 ≠ place)).lookup place = none := by
    rw [List.lookup_eq_none_iff]
    intro f hf
    have hne := (List.mem_filter.mp hf).2
    simp only [ne_eq, decide_eq_true_eq] at hne
    exact bne_iff_ne.mpr (Ne.symm hne)
  unfold file? put
  rw [if_neg (by simp [hnull, hfull])]
  simp only [List.lookup_append, hnone, List.lookup_cons_self, Option.none_or]

/-- A file that is replaced is on the way to nothing that the new one is
not. -/
theorem hasDirectory_put (h : d.hasDirectory target) :
    (d.put place bytes).hasDirectory target := by
  unfold hasDirectory at h ⊢
  rw [Bool.or_eq_true] at h ⊢
  refine h.imp_right fun hany => ?_
  obtain ⟨f, hf, hway⟩ := List.any_eq_true.mp hany
  refine List.any_eq_true.mpr ?_
  by_cases hplace : f.1 = place
  · exact ⟨(place, bytes), by simp [put], by rw [← hplace]; exact hway⟩
  · exact ⟨f, by simp [put, hf, hplace], hway⟩

-- ====================================================== where paths lead

/-- A path that led somewhere still does, since a file is no directory on the
way. -/
theorem resolve_put (hplace : d.hasDirectory place = false)
    (h : d.resolve start names = .ok target) :
    (d.put place bytes).resolve start names = .ok target := by
  induction names generalizing start with
  | nil => exact h
  | cons name names ih =>
      unfold resolve at h ⊢
      split at h
      · cases h
      · next hfile =>
          split at h
          · cases h
          · next hdirectory =>
              rw [Bool.not_eq_true', Bool.not_eq_false] at hdirectory
              -- a place on the way is a directory, and the new file is at none
              have hne : start ≠ place := by
                rintro rfl
                rw [hplace] at hdirectory
                cases hdirectory
              rw [file?_put_of_ne hne, if_neg hfile,
                hasDirectory_put hdirectory]
              split at h
              · cases h
              · next hlength =>
                  rw [if_neg (by decide), if_neg hlength]
                  exact ih h

/-- So every place is found where it was before the file was put. -/
theorem locate_put (hplace : d.hasDirectory place = false)
    (h : d.locate path = .ok target) :
    (d.put place bytes).locate path = .ok target := by
  unfold locate at h ⊢
  split at h
  · cases h
  · next hempty =>
      rw [if_neg hempty]
      split at h
      · cases h
      · next hlong =>
          rw [if_neg hlong]
          exact resolve_put hplace h

/-- The last name of a path is looked for in a directory. -/
theorem resolve_append_singleton
    (h : d.resolve start (names ++ [name]) = .ok target) :
    ∃ parent, d.hasDirectory parent ∧ target = descend parent name := by
  induction names generalizing start with
  | nil =>
      rw [List.nil_append] at h
      unfold resolve at h
      split at h
      · cases h
      · split at h
        · cases h
        · next hdirectory =>
            rw [Bool.not_eq_true', Bool.not_eq_false] at hdirectory
            split at h
            · cases h
            · exact ⟨start, hdirectory, (Except.ok.inj h).symm⟩
  | cons first names ih =>
      rw [List.cons_append] at h
      unfold resolve at h
      split at h
      · cases h
      · split at h
        · cases h
        · split at h
          · cases h
          · exact ih h

theorem hasDirectory_root : d.hasDirectory root := by
  unfold hasDirectory
  simp

/-- The directory that a directory is in is one. -/
theorem hasDirectory_descend_parent (h : d.hasDirectory place) :
    d.hasDirectory (descend place "..") := by
  unfold descend
  split
  · exact hasDirectory_root
  · next hroot =>
      split
      · next hinside =>
          unfold hasDirectory at h
          rw [Bool.or_eq_true, Bool.or_eq_true] at h
          -- inside of the top there are the known directories and those on
          -- the way to a file
          rcases h with (habove | hknown) | hway
          · obtain ⟨name, hname, hne⟩ := List.any_eq_true.mp hinside.2
            have heq := List.all_eq_true.mp habove name hname
            simp_all
          · have hdropped : place.dropLast = root := by
              simp only [List.contains_eq_mem, List.mem_cons,
                List.not_mem_nil, or_false, decide_eq_true_eq] at hknown
              rcases hknown with rfl | rfl | rfl
              · exact absurd ⟨rfl, rfl⟩ hroot
              · rfl
              · rfl
            rw [hdropped]
            exact hasDirectory_root
          · obtain ⟨f, hf, hon⟩ := List.any_eq_true.mp hway
            rw [Bool.and_eq_true, List.isPrefixOf_iff_prefix,
              decide_eq_true_eq] at hon
            unfold hasDirectory
            rw [Bool.or_eq_true]
            refine .inr (List.any_eq_true.mpr ⟨f, hf, ?_⟩)
            rw [Bool.and_eq_true, List.isPrefixOf_iff_prefix,
              decide_eq_true_eq]
            refine ⟨(List.dropLast_prefix place).trans hon.1, ?_⟩
            rw [List.length_dropLast]
            omega
      · next houtside =>
          have habove : ∀ name ∈ place, name = ".." := by simpa using houtside
          have hall : (place ++ [".."]).all (· = "..") = true := by
            simpa using habove
          unfold hasDirectory
          rw [hall]
          rfl

/-- The name of a file is the last one in its path, and not the one of the
parent. -/
theorem fileName?_eq_some :
    Path.fileName? path = some name
      ↔ (Path.names path).getLast? = some name ∧ name ≠ ".." := by
  unfold Path.fileName?
  split
  · next hlast => simp [hlast, eq_comm]
  · next hlast =>
      constructor
      · intro h
        refine ⟨h, ?_⟩
        rintro rfl
        exact hlast h
      · exact fun h => h.1

/-- A place is found by following names from the root or from here. -/
theorem resolve_of_locate (h : d.locate path = .ok target) :
    d.resolve (if path.startsWith "/" then root else []) (Path.names path)
      = .ok target := by
  unfold locate at h
  split at h
  · cases h
  · split at h
    · cases h
    · exact h

/-- A path without a last name, or one that leads back up with it, leads
to a directory. -/
theorem exists_name (h : d.locate path = .ok target)
    (htarget : d.hasDirectory target = false) :
    ∃ name, Path.fileName? path = some name := by
  have hresolve := resolve_of_locate h
  rcases List.eq_nil_or_concat (Path.names path)
    with hnil | ⟨names, name, hnames⟩
  · have hstart :
        d.hasDirectory (if path.startsWith "/" then root else []) := by
      split
      · exact hasDirectory_root
      · rfl
    rw [hnil] at hresolve
    rw [Except.ok.inj hresolve, htarget] at hstart
    cases hstart
  · rw [List.concat_eq_append] at hnames
    rw [hnames] at hresolve
    obtain ⟨parent, hparent, rfl⟩ := resolve_append_singleton hresolve
    refine ⟨name,
      fileName?_eq_some.mpr ⟨by rw [hnames, List.getLast?_concat], ?_⟩⟩
    rintro rfl
    rw [hasDirectory_descend_parent hparent] at htarget
    cases htarget

/-- The last name of a path is the last name of the place. -/
theorem getLast?_of_locate (h : d.locate path = .ok target)
    (hname : Path.fileName? path = some name) :
    target.getLast? = some name := by
  have hresolve := resolve_of_locate h
  obtain ⟨hlast, hup⟩ := fileName?_eq_some.mp hname
  obtain ⟨names, hnames⟩ := List.getLast?_eq_some_iff.mp hlast
  rw [hnames] at hresolve
  obtain ⟨parent, -, rfl⟩ := resolve_append_singleton hresolve
  unfold descend
  rw [if_neg fun h => hup h.1, if_neg fun h => hup h.1, List.getLast?_concat]

-- ================================================== reading and writing

/-- A file is read where its path leads, if the path does not ask for a
directory. -/
theorem read_eq_ok :
    d.read path = .ok bytes ↔ ∃ place, d.locate path = .ok place
    ∧ d.file? place = some bytes
      ∧ (path.endsWith "/" || endsInPoint path) = false := by
  unfold read
  constructor
  · intro h
    split at h
    · cases h
    · next place hlocate =>
        split at h
        · next stored hfile =>
            split at h
            · cases h
            · next hend =>
                rw [Except.ok.inj h] at hfile
                exact ⟨place, hlocate, hfile, Bool.eq_false_iff.mpr hend⟩
        · cases h
  · rintro ⟨place, hlocate, hfile, hend⟩
    rw [hlocate]
    simp only [hfile, hend]
    rfl

/-- A file is written where its path leads, and the device that forgets keeps
nothing. -/
theorem write_eq_ok :
    d.write path bytes = .ok d' ↔ ∃ place, d.locate path = .ok place
    ∧ d.hasDirectory place = false
      ∧ (path.endsWith "/" || endsInPoint path) = false
    ∧ place ≠ fullDevice ∧ d' = if place = nullDevice then d
      else d.put place bytes := by
  unfold write
  constructor
  · intro h
    split at h
    · cases h
    · next place hlocate =>
        refine ⟨place, hlocate, ?_⟩
        split at h
        · cases h
        · next hdirectory =>
            split at h
            · cases h
            · next hpoint =>
                split at h
                · cases h
                · next hslash =>
                    split at h
                    · cases h
                    · next hfull =>
                        have hend : (path.endsWith "/" || endsInPoint path)
                            = false := by
                          simp [hpoint, hslash]
                        refine ⟨Bool.eq_false_iff.mpr hdirectory,
                          hend, hfull, ?_⟩
                        split at h
                        · next hnull => rw [if_pos hnull, Except.ok.inj h]
                        · next hnull => rw [if_neg hnull, Except.ok.inj h]
  · -- every refusal is excluded
    rintro ⟨place, hlocate, hdirectory, hend, hfull, rfl⟩
    obtain ⟨hslash, hpoint⟩ := Bool.or_eq_false_iff.mp hend
    rw [hlocate]
    simp only [hdirectory, hpoint, hslash, hfull, Bool.false_eq_true, if_false]
    split
    · rfl
    · rfl

/-- A written file is read as it was written, unless it is the device that
forgets. -/
theorem read_written (h : d.write path bytes = .ok d')
    (hfile : d.locate path ≠ .ok nullDevice) :
    d'.read path = .ok bytes := by
  obtain ⟨place, hlocate, hplace, hend, hfull, rfl⟩ := write_eq_ok.mp h
  have hnull : place ≠ nullDevice := by
    rintro rfl
    exact hfile hlocate
  rw [if_neg hnull]
  exact read_eq_ok.mpr
    ⟨place, locate_put hplace hlocate, file?_put_self hnull hfull, hend⟩

/-- A file of another name is read as before. -/
theorem read_of_write (h : d.write path bytes = .ok d')
    (hname : Path.fileName? other = some name)
    (hne : Path.fileName? path ≠ some name)
    (hread : d.read other = .ok contents) :
    d'.read other = .ok contents := by
  obtain ⟨place, hlocate, hplace, -, -, rfl⟩ := write_eq_ok.mp h
  split
  · exact hread
  · obtain ⟨target, hother, hfile, hend⟩ := read_eq_ok.mp hread
    obtain ⟨written, hwritten⟩ := exists_name hlocate hplace
    have hplaces : target ≠ place := by
      rintro rfl
      have hlast := getLast?_of_locate hlocate hwritten
      exact hne
        (hwritten.trans (hlast.symm.trans (getLast?_of_locate hother hname)))
    exact read_eq_ok.mpr
      ⟨target, locate_put hplace hother,
        (file?_put_of_ne hplaces).trans hfile, hend⟩

end StackMachine.Command.Directory
