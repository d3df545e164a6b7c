import Mathlib.Order.Bounds.Basic
import ProofDump.Proofs.Text.Search
import ProofDump.Proofs.Theorem.SourceText
import ProofDump.Theorem.Extract

/-!
# Signatures end at the first assignment

A theorem is split at an assignment sign that stands between blanks, tabs or line ends. The sign is looked for
in the text of a range, with blanks for all of these, and an offset in that text is added to one in the source.
This leads to the right byte since the text has as many bytes as the source between its ends, up to the one
after the range, which can only be the last of the sign (`mem_splitPlaces_iff`). A byte of the sign is never
part of a longer character (`assignsAt_iff`), so the first sign of the text is the first one in the bytes of
the source (`split_at_first_assignment`).
-/

namespace ProofDump.Theorem

/-- The signs between which an assignment sign is free. -/
def gaps : List Char := [' ', '\t', '\n']

/-- A gap at an offset of a source is followed by an assignment sign and another gap. -/
structure AssignsAt (bytes : ByteArray) (place : Nat) : Prop where
  left : ∃ sign ∈ gaps, bytes[place]? = some sign.toUInt8
  colon : bytes[place + 1]? = some ':'.toUInt8
  equals : bytes[place + 2]? = some '='.toUInt8
  right : ∃ sign ∈ gaps, bytes[place + 3]? = some sign.toUInt8

instance (bytes : ByteArray) (place : Nat) : Decidable (AssignsAt bytes place) :=
  decidable_of_iff
    ((gaps.any fun sign => bytes[place]? = some sign.toUInt8) = true ∧ bytes[place + 1]? = some ':'.toUInt8 ∧
      bytes[place + 2]? = some '='.toUInt8 ∧ (gaps.any fun sign => bytes[place + 3]? = some sign.toUInt8) = true)
    (by
      simp only [List.any_eq_true, decide_eq_true_eq]
      exact ⟨fun h => ⟨h.1, h.2.1, h.2.2.1, h.2.2.2⟩, fun h => ⟨h.left, h.colon, h.equals, h.right⟩⟩)

/-- The offsets at which a theorem between two offsets of a source can be split. -/
def splitPlaces (bytes : ByteArray) (start stop : Nat) : Set Nat :=
  {place | start ≤ place ∧ place + 3 ≤ stop ∧ AssignsAt bytes place}

theorem utf8Size_of_mem_gaps {sign : Char} (hsign : sign ∈ gaps) : sign.utf8Size = 1 := by
  simp only [gaps, List.mem_cons, List.not_mem_nil, or_false] at hsign
  rcases hsign with rfl | rfl | rfl <;> rfl

/-- An assignment sign between two gaps. -/
def IsFree (sign : List Char) : Prop := ∃ left ∈ gaps, ∃ right ∈ gaps, sign = [left, ':', '=', right]

theorem IsFree.byteLength_eq {sign : List Char} (hsign : IsFree sign) : Text.byteLength sign = 4 := by
  obtain ⟨left, hleft, right, hright, rfl⟩ := hsign
  simp only [Text.byteLength_cons, utf8Size_of_mem_gaps hleft, utf8Size_of_mem_gaps hright]
  rfl

theorem assignsAt_append_iff {front rest : List Char} :
    AssignsAt (front ++ rest).utf8Encode (Text.byteLength front) ↔
      ∃ sign after, IsFree sign ∧ rest = sign ++ after := by
  constructor
  · rintro ⟨⟨left, hleft, hfirst⟩, hcolon, hequals, right, hright, hlast⟩
    have hsize := utf8Size_of_mem_gaps hleft
    obtain ⟨rest, rfl⟩ := (Text.getElem?_utf8Encode_append hsize rfl).1 hfirst
    rw [List.append_cons, Text.getElem?_utf8Encode_append rfl (by simp [hsize])] at hcolon
    obtain ⟨rest, rfl⟩ := hcolon
    rw [List.append_cons, List.append_cons, Text.getElem?_utf8Encode_append rfl (by simp [hsize]; rfl)] at hequals
    obtain ⟨rest, rfl⟩ := hequals
    rw [List.append_cons, List.append_cons, List.append_cons,
      Text.getElem?_utf8Encode_append (utf8Size_of_mem_gaps hright) (by simp [hsize]; rfl)] at hlast
    obtain ⟨after, rfl⟩ := hlast
    exact ⟨_, after, ⟨left, hleft, right, hright, rfl⟩, rfl⟩
  · rintro ⟨sign, after, ⟨left, hleft, right, hright, rfl⟩, rfl⟩
    have hsize := utf8Size_of_mem_gaps hleft
    refine ⟨⟨left, hleft, ?_⟩, ?_, ?_, right, hright, ?_⟩
    · exact (Text.getElem?_utf8Encode_append hsize rfl).2 ⟨_, rfl⟩
    · rw [List.cons_append, List.append_cons]
      exact (Text.getElem?_utf8Encode_append rfl (by simp [hsize])).2 ⟨_, rfl⟩
    · rw [List.cons_append, List.cons_append, List.append_cons, List.append_cons]
      exact (Text.getElem?_utf8Encode_append rfl (by simp [hsize]; rfl)).2 ⟨_, rfl⟩
    · rw [List.cons_append, List.cons_append, List.cons_append, List.append_cons, List.append_cons,
        List.append_cons]
      exact (Text.getElem?_utf8Encode_append (utf8Size_of_mem_gaps hright) (by simp [hsize]; rfl)).2 ⟨_, rfl⟩

theorem assignsAt_iff {text : List Char} {place : Nat} :
    AssignsAt text.utf8Encode place ↔ ∃ before sign after, IsFree sign ∧ text = before ++ (sign ++ after) ∧
      Text.byteLength before = place := by
  constructor
  · intro hassigns
    obtain ⟨left, hleft, hfirst⟩ := hassigns.left
    obtain ⟨before, rest, rfl, rfl⟩ :=
      (Text.getElem?_utf8Encode_eq_some_iff (utf8Size_of_mem_gaps hleft)).1 hfirst
    obtain ⟨sign, after, hsign, hrest⟩ := assignsAt_append_iff.1 hassigns
    exact ⟨before, sign, after, hsign, by rw [hrest], rfl⟩
  · rintro ⟨before, sign, after, hsign, rfl, rfl⟩
    exact assignsAt_append_iff.2 ⟨sign, after, hsign, rfl⟩

/-! ### The source with blanks for gaps -/

theorem blankLineEnds_cons (c : Char) (text : List Char) :
    blankLineEnds (c :: text) =
      (if c = '\t' ∨ c = '\n' ∨ c = '\r' then ' ' else c) :: blankLineEnds text := rfl

theorem byteLength_blankLineEnds (text : List Char) :
    Text.byteLength (blankLineEnds text) = Text.byteLength text := by
  induction text with
  | nil => rfl
  | cons c text ih =>
      rw [blankLineEnds_cons, Text.byteLength_cons, Text.byteLength_cons, ih]
      split
      · next hgap => rcases hgap with rfl | rfl | rfl <;> rfl
      · rfl

theorem blankLineEnds_gap {sign : Char} (hsign : sign ∈ gaps) (text : List Char) :
    blankLineEnds (sign :: text) = ' ' :: blankLineEnds text := by
  simp only [gaps, List.mem_cons, List.not_mem_nil, or_false] at hsign
  rcases hsign with rfl | rfl | rfl <;> rfl

theorem mem_gaps_of_blankLineEnds {text rest : List Char} (hreturn : '\r' ∉ text)
    (hblank : blankLineEnds text = ' ' :: rest) :
    ∃ sign ∈ gaps, ∃ after, text = sign :: after ∧ blankLineEnds after = rest := by
  cases text with
  | nil => cases hblank
  | cons sign after =>
      rw [blankLineEnds_cons] at hblank
      obtain ⟨hsign, hrest⟩ := List.cons.inj hblank
      rw [List.mem_cons, not_or] at hreturn
      refine ⟨sign, ?_, after, rfl, hrest⟩
      split at hsign
      · next hgap =>
          rcases hgap with rfl | rfl | rfl
          · decide
          · decide
          · exact absurd rfl hreturn.1
      · rw [hsign]
        decide

theorem eq_cons_of_blankLineEnds {text rest : List Char} {sign : Char} (hsign : sign ≠ ' ')
    (hblank : blankLineEnds text = sign :: rest) : ∃ after, text = sign :: after ∧ blankLineEnds after = rest := by
  cases text with
  | nil => cases hblank
  | cons c after =>
      rw [blankLineEnds_cons] at hblank
      obtain ⟨hsame, hrest⟩ := List.cons.inj hblank
      split at hsame
      · exact absurd hsame.symm hsign
      · exact ⟨after, by rw [hsame], hrest⟩

/-- Without carriage returns, an assignment sign between blanks is one between gaps. -/
theorem blankLineEnds_eq_append_iff {text front back : List Char} (hreturn : '\r' ∉ text) :
    blankLineEnds text = front ++ " := ".toList ++ back ↔
      ∃ before sign after, IsFree sign ∧ text = before ++ (sign ++ after) ∧ blankLineEnds before = front ∧
        blankLineEnds after = back := by
  have hpattern : " := ".toList = [' ', ':', '=', ' '] := rfl
  rw [hpattern, List.append_assoc]
  constructor
  · intro hsame
    obtain ⟨before, rest, rfl, hbefore, hrest⟩ := List.map_eq_append_iff.1 hsame
    rw [List.mem_append, not_or] at hreturn
    obtain ⟨left, hleft, rest, rfl, hcolon⟩ := mem_gaps_of_blankLineEnds hreturn.2 hrest
    obtain ⟨rest, rfl, hequals⟩ := eq_cons_of_blankLineEnds (by decide) hcolon
    obtain ⟨rest, rfl, hblank⟩ := eq_cons_of_blankLineEnds (by decide) hequals
    have hlater : '\r' ∉ rest := by
      intro hmem
      exact hreturn.2 (by simp [hmem])
    obtain ⟨right, hright, after, rfl, hafter⟩ := mem_gaps_of_blankLineEnds hlater hblank
    exact ⟨before, _, after, ⟨left, hleft, right, hright, rfl⟩, rfl, hbefore, hafter⟩
  · rintro ⟨before, sign, after, ⟨left, hleft, right, hright, rfl⟩, rfl, rfl, rfl⟩
    have hsign : blankLineEnds [left, ':', '=', right] = [' ', ':', '=', ' '] := by
      rw [blankLineEnds_gap hleft, blankLineEnds_cons, blankLineEnds_cons, blankLineEnds_gap hright]
      rfl
    rw [← hsign]
    simp only [blankLineEnds, List.map_append]

/-! ### The split -/

section Split

variable {tree : FileTree} {root path content : String} {module : Value} {start stop : Nat}

theorem sourceText_eq_ok_iff (hpath : Project.sourceOf? (some tree) root module true = .ok (some path))
    (hread : tree.read path = .ok content) (hreturn : '\r' ∉ content.toList) (hle : start ≤ stop)
    (hstop : stop ≤ Text.byteLength content.toList) (part : List Char) :
    sourceText (some tree) root module (FileRange.ofBytes (lineStarts content.toList) ⟨start, stop⟩) =
        .ok part ↔
      ∃ before after, content.toList = before ++ part ++ after ∧ Text.byteLength before = start ∧
        Text.byteLength (before ++ part) = min (stop + 1) (Text.byteLength content.toList) := by
  rw [sourceText_bytes hpath hread hreturn hle hstop, linePart, if_neg (by omega),
    ← Text.exactSlice?_eq_some_iff (Nat.lt_succ_of_le hle) (hle.trans hstop)]
  cases Text.exactSlice? start (stop + 1 : Nat) content.toList with
  | none => simp
  | some part => simp

/-- The places where a source can be split are those of the blanks before assignment signs in its text. -/
theorem mem_splitPlaces_iff {text before part after : List Char} (hreturn : '\r' ∉ text)
    (htext : text = before ++ part ++ after) (hbefore : Text.byteLength before = start)
    (hpart : Text.byteLength (before ++ part) = min (stop + 1) (Text.byteLength text)) {place : Nat} :
    place ∈ splitPlaces text.utf8Encode start stop ↔
      ∃ front back, blankLineEnds part = front ++ " := ".toList ++ back ∧
        place = start + Text.byteLength front := by
  have hreturn' : '\r' ∉ part := by
    intro hmem
    exact hreturn (by simp [htext, hmem])
  constructor
  · rintro ⟨hstart, hstop, hassigns⟩
    obtain ⟨early, sign, late, hsign, hsame, rfl⟩ := assignsAt_iff.1 hassigns
    have hlength := congrArg Text.byteLength hsame
    rw [Text.byteLength_append, Text.byteLength_append, hsign.byteLength_eq] at hlength
    rw [htext, List.append_assoc] at hsame
    obtain ⟨front, rfl, hrest⟩ := Text.exists_append_of_byteLength_le hsame (hbefore.trans_le hstart)
    have hinside : Text.byteLength (front ++ sign) ≤ Text.byteLength part := by
      rw [Text.byteLength_append] at hpart hlength hstop ⊢
      rw [hsign.byteLength_eq]
      omega
    rw [← List.append_assoc] at hrest
    obtain ⟨back, rfl, -⟩ := Text.exists_append_of_byteLength_le hrest.symm hinside
    refine ⟨blankLineEnds front, blankLineEnds back, ?_, ?_⟩
    · exact (blankLineEnds_eq_append_iff hreturn').2
        ⟨front, sign, back, hsign, List.append_assoc _ _ _, rfl, rfl⟩
    · rw [byteLength_blankLineEnds, Text.byteLength_append, hbefore]
  · rintro ⟨front, back, hblank, rfl⟩
    obtain ⟨early, sign, late, hsign, rfl, rfl, -⟩ := (blankLineEnds_eq_append_iff hreturn').1 hblank
    rw [byteLength_blankLineEnds]
    simp only [Text.byteLength_append, hsign.byteLength_eq] at hpart
    refine ⟨by omega, by omega, assignsAt_iff.2 ⟨before ++ early, sign, late ++ after, hsign, ?_, ?_⟩⟩
    · simp [htext]
    · rw [Text.byteLength_append, hbefore]

theorem splitPlaces_eq_empty {text before part after : List Char} (hreturn : '\r' ∉ text)
    (htext : text = before ++ part ++ after) (hbefore : Text.byteLength before = start)
    (hpart : Text.byteLength (before ++ part) = min (stop + 1) (Text.byteLength text))
    (hcut : Text.cutFirst? " := ".toList (blankLineEnds part) = none) :
    splitPlaces text.utf8Encode start stop = ∅ := by
  apply Set.eq_empty_of_forall_notMem
  intro place hplace
  obtain ⟨front, back, hblank, -⟩ := (mem_splitPlaces_iff hreturn htext hbefore hpart).1 hplace
  have hfound := Text.cutFirst?_isSome_iff.2 ⟨front, back, hblank.symm⟩
  rw [hcut] at hfound
  cases hfound

theorem isLeast_splitPlaces {text before part after : List Char} (hreturn : '\r' ∉ text)
    (htext : text = before ++ part ++ after) (hbefore : Text.byteLength before = start)
    (hpart : Text.byteLength (before ++ part) = min (stop + 1) (Text.byteLength text)) {front back : List Char}
    (hcut : Text.cutFirst? " := ".toList (blankLineEnds part) = some (front, back)) :
    IsLeast (splitPlaces text.utf8Encode start stop) (start + Text.byteLength front) := by
  obtain ⟨hblank, hfirst⟩ := Text.cutFirst?_eq_some hcut
  constructor
  · exact (mem_splitPlaces_iff hreturn htext hbefore hpart).2 ⟨front, back, hblank, rfl⟩
  · intro place hplace
    obtain ⟨later, rest, hlater, rfl⟩ := (mem_splitPlaces_iff hreturn htext hbefore hpart).1 hplace
    obtain ⟨between, rfl⟩ := hfirst later rest hlater
    rw [Text.byteLength_append]
    omega

theorem signatureAndProof?_bytes {lines : LineStarts} (hlines : lines.FromZero) (files : Option FileTree)
    (root : String) (module : Value) (start stop : Nat) :
    signatureAndProof? files root module lines ⟨.int start, .int stop⟩ = do
      let text ← sourceText files root module (.ofBytes lines ⟨start, stop⟩)
      return (Text.cutFirst? " := ".toList (blankLineEnds text)).map fun cut =>
        (.ofBytes lines ⟨start, (start + Text.byteLength cut.1 : Nat)⟩,
          .ofBytes lines ⟨(start + Text.byteLength cut.1 + 1 : Nat), stop⟩) := by
  rw [signatureAndProof?, FileRange.ofSpan_bytes hlines ⟨start, stop⟩, ok_bind]
  congr 1
  funext text
  cases Text.cutFirst? " := ".toList (blankLineEnds text) with
  | none => rfl
  | some cut =>
      have hsignature := FileRange.ofSpan_bytes hlines ⟨start, (start + Text.byteLength cut.1 : Nat)⟩
      have hproof := FileRange.ofSpan_bytes hlines ⟨(start + Text.byteLength cut.1 + 1 : Nat), stop⟩
      show (FileRange.ofSpan lines (some ⟨.int start, .int (start + Text.byteLength cut.1 : Nat)⟩) >>= _) = _
      rw [hsignature, ok_bind]
      show (FileRange.ofSpan lines (some ⟨.int (start + Text.byteLength cut.1 + 1 : Nat), .int stop⟩) >>= _) = _
      rw [hproof]
      rfl

/-- There is a result exactly if the bytes of the theorem and the one after them are whole characters. -/
theorem exists_split_iff (hpath : Project.sourceOf? (some tree) root module true = .ok (some path))
    (hread : tree.read path = .ok content) (hreturn : '\r' ∉ content.toList) (hle : start ≤ stop)
    (hstop : stop ≤ Text.byteLength content.toList) :
    (∃ result, signatureAndProof? (some tree) root module (lineStarts content.toList)
        ⟨.int start, .int stop⟩ = .ok result) ↔
      String.Pos.Raw.IsValid content ⟨start⟩ ∧
        String.Pos.Raw.IsValid content ⟨min (stop + 1) (Text.byteLength content.toList)⟩ := by
  have htext := sourceText_eq_ok_iff hpath hread hreturn hle hstop
  rw [signatureAndProof?_bytes (lineStarts_fromZero content.toList)]
  constructor
  · rintro ⟨result, hresult⟩
    obtain ⟨part, hpart, -⟩ := bind_eq_ok.1 hresult
    obtain ⟨before, after, hcontent, rfl, hlength⟩ := (htext part).1 hpart
    rw [← hlength]
    exact ⟨Text.isValid_of_append (hcontent.trans (List.append_assoc _ _ _)), Text.isValid_of_append hcontent⟩
  · rintro ⟨hstart, hend⟩
    obtain ⟨before, part, after, hcontent, hbefore, hlength⟩ := Text.exists_parts hstart hend (by omega)
    rw [(htext part).2 ⟨before, after, hcontent, hbefore, hlength⟩]
    exact ⟨_, rfl⟩

/-- A theorem between two offsets of a source is split at the first offset of an assignment sign between blanks,
tabs or line ends, and is not split if there is none. There is a result exactly if its bytes and the one
after them are whole characters. -/
theorem split_at_first_assignment
    (hpath : Project.sourceOf? (some tree) root module true = .ok (some path))
    (hread : tree.read path = .ok content) (hreturn : '\r' ∉ content.toList) (hle : start ≤ stop)
    (hstop : stop ≤ content.utf8ByteSize) :
    ((∃ result, signatureAndProof? (some tree) root module (lineStarts content.toList)
          ⟨.int start, .int stop⟩ = .ok result) ↔
      String.Pos.Raw.IsValid content ⟨start⟩ ∧
        String.Pos.Raw.IsValid content ⟨min (stop + 1) content.utf8ByteSize⟩) ∧
    ∀ result, signatureAndProof? (some tree) root module (lineStarts content.toList)
        ⟨.int start, .int stop⟩ = .ok result →
      (∀ place, IsLeast (splitPlaces content.toByteArray start stop) place → ∃ signature proof,
        FileRange.ofSpan (lineStarts content.toList) (some ⟨.int start, .int place⟩) = .ok signature ∧
        FileRange.ofSpan (lineStarts content.toList) (some ⟨.int (place + 1 : Nat), .int stop⟩) = .ok proof ∧
        result = some (signature, proof)) ∧
      (splitPlaces content.toByteArray start stop = ∅ → result = none) := by
  have hlines := lineStarts_fromZero content.toList
  have hbytes : content.toByteArray = content.toList.utf8Encode := by
    rw [← String.toByteArray_ofList, String.ofList_toList]
  rw [Text.utf8ByteSize_eq] at hstop ⊢
  refine ⟨exists_split_iff hpath hread hreturn hle hstop, fun result hresult => ?_⟩
  rw [signatureAndProof?_bytes hlines] at hresult
  obtain ⟨part, hpart, hresult⟩ := bind_eq_ok.1 hresult
  obtain ⟨before, after, hcontent, hbefore, hlength⟩ :=
    (sourceText_eq_ok_iff hpath hread hreturn hle hstop part).1 hpart
  rw [hbytes]
  cases hcut : Text.cutFirst? " := ".toList (blankLineEnds part) with
  | none =>
      have hempty := splitPlaces_eq_empty hreturn hcontent hbefore hlength hcut
      rw [hcut] at hresult
      cases hresult
      refine ⟨fun place hplace => ?_, fun _ => rfl⟩
      rw [hempty] at hplace
      exact hplace.1.elim
  | some cut =>
      have hleast := isLeast_splitPlaces hreturn hcontent hbefore hlength hcut
      rw [hcut] at hresult
      cases hresult
      refine ⟨fun place hplace => ?_, fun hempty => ?_⟩
      · obtain rfl := hplace.unique hleast
        exact ⟨_, _, FileRange.ofSpan_bytes hlines ⟨_, _⟩, FileRange.ofSpan_bytes hlines ⟨_, _⟩, rfl⟩
      · rw [hempty] at hleast
        exact hleast.1.elim

end Split

/-- A project with one source, in which a line end and a tab are around the first assignment sign. -/
def twoSigns : FileTree := ⟨["w"], [(["w", "proj", "A.lean"], "é\n:=\t→ := x\n")], []⟩

/-- The signature ends before the line end, and the proof inside the arrow, where it is told to stop. -/
theorem split_of_twoSigns :
    String.Pos.Raw.IsValid "é\n:=\t→ := x\n" ⟨0⟩ ∧ String.Pos.Raw.IsValid "é\n:=\t→ := x\n" ⟨9⟩ ∧
      IsLeast (splitPlaces "é\n:=\t→ := x\n".toByteArray 0 8) 2 ∧
      signatureAndProof? (some twoSigns) "proj" (.arr [.str "A"]) (lineStarts "é\n:=\t→ := x\n".toList)
        ⟨.int 0, .int 8⟩ = .ok (some (⟨⟨1, 1⟩, ⟨1, 3⟩⟩, ⟨⟨2, 1⟩, ⟨2, 6⟩⟩)) := by
  have hpath : Project.sourceOf? (some twoSigns) "proj" (.arr [.str "A"]) true = .ok (some "proj/A.lean") := rfl
  have hread : twoSigns.read "proj/A.lean" = .ok "é\n:=\t→ := x\n" := FileTree.read_eq_ok_iff.2 rfl
  have hstart : String.Pos.Raw.IsValid "é\n:=\t→ := x\n" ⟨0⟩ :=
    String.Pos.Raw.isValid_iff_exists_append.2 ⟨"", "é\n:=\t→ := x\n", rfl, rfl⟩
  have hstop : String.Pos.Raw.IsValid "é\n:=\t→ := x\n" ⟨9⟩ :=
    String.Pos.Raw.isValid_iff_exists_append.2 ⟨"é\n:=\t→", " := x\n", rfl, rfl⟩
  have hleast : IsLeast (splitPlaces "é\n:=\t→ := x\n".toByteArray 0 8) 2 := by
    refine ⟨⟨by decide, by decide, by decide⟩, fun place hplace => ?_⟩
    by_contra hearlier
    have hcases : place = 0 ∨ place = 1 := by omega
    rcases hcases with rfl | rfl
    · exact absurd hplace.2.2 (by decide)
    · exact absurd hplace.2.2 (by decide)
  have hsplit := split_at_first_assignment hpath hread (by decide) (Nat.zero_le 8) (by decide)
  obtain ⟨result, hresult⟩ := hsplit.1.2 ⟨hstart, hstop⟩
  obtain ⟨signature, proof, hsignature, hproof, rfl⟩ := (hsplit.2 result hresult).1 2 hleast
  cases hsignature
  cases hproof
  exact ⟨hstart, hstop, hleast, hresult⟩

end ProofDump.Theorem
