import ProofDump.Proofs.Content
import ProofDump.Proofs.FileTree.Follow

/-!
# Writing files

A file is read as it was last written. In a tree that grows, a path that leads somewhere still leads there, and one
that is too long stays so. Putting a file in place makes a tree grow, and files that other paths lead to stay as they
are.
-/

namespace ProofDump.FileTree

variable {tree after : FileTree} {text : String} {names : List String}

theorem write_eq_ok_iff {content : String} :
    tree.write text content = .ok after ↔
      ∃ names, tree.locate text = .ok names ∧ tree.isDirectoryAt names = false ∧ after = tree.put names content := by
  rw [write, bind_eq_ok]
  constructor
  · intro hwrite
    obtain ⟨names, hnames, hwrite⟩ := hwrite
    split at hwrite
    · cases hwrite
    · rename_i hdirectory
      exact ⟨names, hnames, Bool.eq_false_iff.2 hdirectory, (Except.ok.inj hwrite).symm⟩
  · rintro ⟨names, hnames, hdirectory, rfl⟩
    refine ⟨names, hnames, ?_⟩
    rw [hdirectory]
    rfl

/-! ### Trees that grow -/

/-- What is there in a tree is there in another one, at the same current directory. -/
structure Grows (tree after : FileTree) : Prop where
  here : after.here = tree.here
  files : ∀ names, tree.isFileAt names = true → after.isFileAt names = true
  directories : ∀ names, tree.isDirectoryAt names = true → after.isDirectoryAt names = true

namespace Grows

/-- Only a way that ended where there was nothing, or no directory, can end elsewhere. -/
theorem follow_eq (hgrows : tree.Grows after) {reached way : List String}
    (habsent : tree.follow reached way ≠ .error .absent) (hfile : tree.follow reached way ≠ .error .file) :
    after.follow reached way = tree.follow reached way := by
  induction way generalizing reached with
  | nil => rfl
  | cons part way ih =>
      by_cases hdirectory : tree.isDirectoryAt reached = true
      · have hafter := hgrows.directories reached hdirectory
        rcases exists_leads_or_long reached part with ⟨next, hleads⟩ | hlong
        · rw [follow_of_leads hdirectory hleads] at habsent hfile ⊢
          rw [follow_of_leads hafter hleads]
          exact ih habsent hfile
        · rw [follow_of_long hdirectory hlong, follow_of_long hafter hlong]
      · rw [follow, if_neg hdirectory] at habsent hfile
        split at hfile
        · exact absurd rfl hfile
        · rename_i hnone
          exact absurd (if_neg hnone) habsent

theorem locate_eq (hgrows : tree.Grows after) (hlocate : tree.locate text = .ok names) :
    after.locate text = .ok names := by
  obtain ⟨hnull, hempty, hshort, hfollow⟩ := locate_text_eq_ok_iff.1 hlocate
  refine locate_text_eq_ok_iff.2 ⟨hnull, hempty, hshort, ?_⟩
  rw [hgrows.here, hgrows.follow_eq (by rw [hfollow]; rintro ⟨⟩) (by rw [hfollow]; rintro ⟨⟩), hfollow]

theorem reach_long (hgrows : tree.Grows after) (hlong : tree.reach text = .error .long) :
    after.reach text = .error .long := by
  rw [reach] at hlong ⊢
  split at hlong
  · cases hlong
  · rw [if_neg ‹_›]
    split at hlong
    · rw [if_pos ‹_›]
    · rw [if_neg ‹_›, hgrows.here,
        hgrows.follow_eq (by rw [hlong]; rintro ⟨⟩) (by rw [hlong]; rintro ⟨⟩), hlong]

theorem exists?_true (hgrows : tree.Grows after) {path : Path} (hexists : tree.exists? path = .ok true) :
    after.exists? path = .ok true := by
  obtain ⟨names, hnames, hplace⟩ := holds_iff.1 (holds_of_exists? hexists)
  have hafter := hgrows.locate_eq hnames
  rw [exists?_of_locate hafter, holds_iff.2 ⟨names, hafter, hplace.imp (hgrows.files names) (hgrows.directories names)⟩]

theorem exists?_error (hgrows : tree.Grows after) {path : Path} {fault : Fault}
    (herror : tree.exists? path = .error fault) : after.exists? path = .error fault := by
  obtain ⟨hnull, hlong, hfault⟩ := exists?_eq_error_iff.1 herror
  exact exists?_eq_error_iff.2 ⟨hnull, hgrows.reach_long hlong, hfault⟩

end Grows

/-! ### Putting a file in place -/

theorem isDirectoryAt_put {content : Content} {directory : List String} (hdirectory : tree.isDirectoryAt directory = true) :
    (tree.put names content).isDirectoryAt directory = true := by
  simp only [isDirectoryAt, put, Bool.or_eq_true, List.contains_eq_mem, decide_eq_true_eq, List.any_append,
    List.any_cons, List.any_nil, Bool.or_false] at hdirectory ⊢
  rcases hdirectory with ((hroot | hlisted) | hfile) | habove
  · exact .inl (.inl (.inl hroot))
  · exact .inl (.inl (.inr (List.mem_append_left _ hlisted)))
  · obtain ⟨file, hfile, hbelow⟩ := List.any_eq_true.1 hfile
    -- The file that makes this a directory is still there, be it with another content.
    by_cases hsame : file.1 = names
    · rw [hsame] at hbelow
      exact .inl (.inr (.inr hbelow))
    · refine .inl (.inr (.inl (List.any_eq_true.2 ⟨file, ?_, hbelow⟩)))
      exact List.mem_filter.2 ⟨hfile, decide_eq_true hsame⟩
  · exact .inr (.inl habove)

theorem isFileAt_put {content : Content} {others : List String} (hfile : tree.isFileAt others = true) :
    (tree.put names content).isFileAt others = true := by
  by_cases hsame : others = names
  · simp [isFileAt, put, hsame]
  · obtain ⟨file, hmem, hfile⟩ := List.any_eq_true.1 hfile
    refine List.any_eq_true.2 ⟨file, List.mem_append_left _ (List.mem_filter.2 ⟨hmem, ?_⟩), hfile⟩
    rw [of_decide_eq_true hfile]
    exact decide_eq_true hsame

theorem grows_put (tree : FileTree) (names : List String) (content : Content) : tree.Grows (tree.put names content) where
  here := rfl
  files _ := isFileAt_put
  directories _ := isDirectoryAt_put

theorem grows_of_write {content : String} (hwrite : tree.write text content = .ok after) : tree.Grows after := by
  obtain ⟨names, -, -, rfl⟩ := write_eq_ok_iff.1 hwrite
  exact grows_put tree names content

theorem locate_put {content : Content} {other : String} {there : List String} (hlocate : tree.locate other = .ok there) :
    (tree.put names content).locate other = .ok there :=
  (grows_put tree names content).locate_eq hlocate

theorem lookup_put {content : Content} : (tree.put names content).files.lookup names = some content := by
  have hothers : (tree.files.filter fun file => file.1 ≠ names).lookup names = none := by
    rw [List.lookup_eq_none_iff]
    intro file hfile
    have hne : file.1 ≠ names := of_decide_eq_true (List.mem_filter.1 hfile).2
    exact bne_iff_ne.2 hne.symm
  rw [put, List.lookup_append, hothers]
  simp

theorem lookup_put_of_ne {content : Content} {others : List String} (hne : others ≠ names) :
    (tree.put names content).files.lookup others = tree.files.lookup others := by
  have hothers : (tree.files.filter fun file => file.1 ≠ names).lookup others = tree.files.lookup others := by
    induction tree.files with
    | nil => rfl
    | cons file files ih =>
        by_cases hfile : file.1 = names
        · rw [List.filter_cons_of_neg (by simpa using hfile), List.lookup_cons, ih,
            beq_eq_false_iff_ne.2 (hfile ▸ hne)]
        · rw [List.filter_cons_of_pos (by simpa using hfile), List.lookup_cons, List.lookup_cons, ih]
  have hlast : [(names, content)].lookup others = none := by
    simp [hne]
  rw [put, List.lookup_append, hothers, hlast, Option.or_none]

/-! ### Reading after writing -/

theorem read_eq_ok_iff {content : String} :
    tree.read text = .ok content ↔ tree.contentOf text = .ok (.ofText content) := by
  rw [read, bind_eq_ok]
  simp only [Content.text_eq_ok_iff, exists_eq_right]

theorem read_of_write {content : String} (hwrite : tree.write text content = .ok after) :
    after.read text = .ok content := by
  obtain ⟨names, hnames, -, rfl⟩ := write_eq_ok_iff.1 hwrite
  rw [read_eq_ok_iff, contentOf, locate_put hnames, ok_bind, lookup_put]
  rfl

/-- Files that other names lead to stay as they are. -/
theorem read_of_write_other {content other kept : String} (hwrite : tree.write text content = .ok after)
    (hread : tree.read other = .ok kept)
    (hapart : ∀ names, tree.locate text = .ok names → tree.locate other ≠ .ok names) :
    after.read other = .ok kept := by
  obtain ⟨names, hnames, -, rfl⟩ := write_eq_ok_iff.1 hwrite
  obtain ⟨there, hthere, hread⟩ := bind_eq_ok.1 (read_eq_ok_iff.1 hread)
  have hne : there ≠ names := by
    rintro rfl
    exact hapart there hnames hthere
  rw [read_eq_ok_iff, contentOf, locate_put hthere, ok_bind, lookup_put_of_ne hne]
  split at hread
  · exact hread
  · split at hread <;> cases hread

/-! ### The last name of a path -/

theorem getLast?_of_follow {reached way there : List String} {last : String} (hhere : last ≠ ".")
    (habove : last ≠ "..") (hfollow : tree.follow reached (way ++ [last]) = .ok there) :
    there.getLast? = some last := by
  induction way generalizing reached with
  | nil =>
      obtain ⟨-, next, hleads, hend⟩ := follow_cons_eq_ok_iff.1 hfollow
      cases hend
      cases hleads with
      | here hpart => exact absurd hpart hhere
      | above hpart => exact absurd hpart habove
      | name _ _ _ => exact List.getLast?_concat
  | cons part way ih =>
      obtain ⟨-, next, -, hway⟩ := follow_cons_eq_ok_iff.1 hfollow
      exact ih hway

/-- What comes after the last slash of a text is what its last piece ends with. -/
theorem suffix_getLast_splitOn (front : List Char) {tail : List Char} (htail : '/' ∉ tail) :
    ∃ pieces last, (front ++ tail).splitOn '/' = pieces ++ [last] ∧ tail <:+ last := by
  obtain ⟨pieces, last, hpieces⟩ :=
    (List.eq_nil_or_concat ((front ++ tail).splitOn '/')).resolve_left (List.splitOn_ne_nil _ _)
  rw [List.concat_eq_append] at hpieces
  refine ⟨pieces, last, hpieces, ?_⟩
  have hjoined : pieces.flatMap (· ++ ['/']) ++ last = front ++ tail := by
    rw [← Text.intercalate_concat, ← hpieces, List.intercalate_splitOn]
  rcases List.suffix_or_suffix_of_suffix (List.suffix_append front tail)
    (hjoined ▸ List.suffix_append (pieces.flatMap (· ++ ['/'])) last) with hshort | hlong
  · exact hshort
  · obtain ⟨between, hbetween⟩ := hlong
    by_cases hnil : between = []
    · rw [← hbetween, hnil]
      exact List.suffix_rfl
    · -- A longer tail would reach back to the slash before the last piece.
      exfalso
      rw [← hbetween, ← List.append_assoc, List.append_cancel_right_eq] at hjoined
      obtain ⟨rest, c, rfl⟩ := (List.eq_nil_or_concat between).resolve_left hnil
      have hlast : (pieces.flatMap (· ++ ['/'])).getLast? = some '/' := by
        cases hend : pieces.eq_nil_or_concat with
        | inl hempty =>
            rw [hempty] at hjoined
            simp at hjoined
        | inr hsome =>
            obtain ⟨others, piece, rfl⟩ := hsome
            simp
      rw [hjoined, List.concat_eq_append, ← List.append_assoc, List.getLast?_concat] at hlast
      cases hlast
      exact htail (by rw [← hbetween]; simp)

theorem getLast?_of_locate {front tail : List Char} (htail : '/' ∉ tail) (hlong : 2 < tail.length)
    {there : List String} (hlocate : tree.locate (String.ofList (front ++ tail)) = .ok there) :
    ∃ last, there.getLast? = some last ∧ tail <:+ last.toList := by
  obtain ⟨pieces, last, hpieces, hsuffix⟩ := suffix_getLast_splitOn front htail
  have hlength := hsuffix.length_le
  have hne (name : String) (hname : name.toList.length ≤ 2) : String.ofList last ≠ name := by
    rintro rfl
    rw [String.toList_ofList] at hname
    omega
  have hends : (String.ofList (front ++ tail)).toList.getLast? ≠ some '/' := by
    rw [String.toList_ofList, List.getLast?_append_of_ne_nil _ (List.ne_nil_of_length_pos (by omega))]
    exact fun hslash => htail (List.mem_of_getLast? hslash)
  obtain ⟨way, hway⟩ : ∃ way, waypoints (String.ofList (front ++ tail)) = way ++ [String.ofList last] := by
    refine ⟨(pieces.map String.ofList).filter (· ≠ ""), ?_⟩
    rw [waypoints, if_neg hends, Text.splitAt_eq_splitOn, String.toList_ofList, hpieces, List.map_append,
      List.filter_append]
    simp [hne "" (by decide)]
  obtain ⟨-, -, -, hfollow⟩ := locate_text_eq_ok_iff.1 hlocate
  rw [hway] at hfollow
  refine ⟨_, getLast?_of_follow (hne _ (by decide)) (hne _ (by decide)) hfollow, ?_⟩
  rwa [String.toList_ofList]

end ProofDump.FileTree
