import Mathlib.Data.List.TakeWhile
import ProofDump.Proofs.Except
import ProofDump.Proofs.FileTree.Write
import ProofDump.Proofs.Position
import ProofDump.Proofs.Text.Bytes
import ProofDump.Proofs.Text.Lines
import ProofDump.Theorem.Source

/-!
# The text of a range of bytes

A range of bytes is turned into lines and columns, and these are looked up in the lines of the source. An
offset is inside the line whose number its position has (`ofOffset_startsFrom`), so that the text of a range
can be cut out of the source as a whole (`rangeText_startsFrom`). The column at which a range stops counts
as part of it, while the offset that it comes from does not: the text is that of the bytes and of the byte
after them, which is the next character or tears it (`sourceText_parts`). Only at the end of the source
there is no such byte (`range_text_exact_iff`).
-/

namespace ProofDump.Theorem

/-! ### Lines and the offsets at which they start -/

/-- The offsets at which lines start, the first of which starts at the given one. -/
def startsFrom (offset : Nat) : List (List Char) → List Int
  | [] => []
  | line :: rest => offset :: startsFrom (offset + Text.byteLength line) rest

/-- The line starts of a text, as a dump lists them. -/
def lineStarts (text : List Char) : LineStarts := ⟨startsFrom 0 (Text.lines text), []⟩

theorem lineStarts_fromZero (text : List Char) : (lineStarts text).FromZero where
  offsets := rfl
  first := by
    intro start hstart
    rw [lineStarts] at hstart
    cases hlines : Text.lines text with
    | nil =>
        rw [hlines] at hstart
        cases hstart
    | cons line rest =>
        rw [hlines] at hstart
        cases hstart
        rfl

theorem startsFrom_append (offset : Nat) (done others : List (List Char)) :
    startsFrom offset (done ++ others) =
      startsFrom offset done ++ startsFrom (offset + Text.byteLength done.flatten) others := by
  induction done generalizing offset with
  | nil => simp [startsFrom]
  | cons line done ih =>
      rw [List.cons_append, startsFrom, startsFrom, ih, List.flatten_cons, Text.byteLength_append,
        Nat.add_assoc, List.cons_append]

theorem length_startsFrom (offset : Nat) (lines : List (List Char)) :
    (startsFrom offset lines).length = lines.length := by
  induction lines generalizing offset with
  | nil => rfl
  | cons line rest ih => rw [startsFrom, List.length_cons, List.length_cons, ih]

theorem le_of_mem_startsFrom {offset : Nat} {lines : List (List Char)} {start : Int}
    (hstart : start ∈ startsFrom offset lines) :
    start ≤ (offset + Text.byteLength lines.flatten : Nat) := by
  induction lines generalizing offset with
  | nil => cases hstart
  | cons line rest ih =>
      rw [List.flatten_cons, Text.byteLength_append]
      rcases List.mem_cons.1 hstart with rfl | hstart
      · omega
      · have hle := ih hstart
        omega

/-- An offset inside a line, or at the end of the last one, is on that line. -/
theorem ofOffset_startsFrom (done others : List (List Char)) {line : List Char} {place : Nat}
    (hplace : place < Text.byteLength line ∨ others = []) :
    FilePos.ofOffset (startsFrom 0 (done ++ line :: others)) (Text.byteLength done.flatten + place : Nat) =
      ⟨done.length + 1, place + 1⟩ := by
  have hpassed : FilePos.passed (startsFrom 0 (done ++ line :: others))
      (Text.byteLength done.flatten + place : Nat) =
        startsFrom 0 done ++ [(Text.byteLength done.flatten : Int)] := by
    rw [FilePos.passed, startsFrom_append, Nat.zero_add, startsFrom, List.takeWhile_append_of_pos,
      List.takeWhile_cons_of_pos (by simp)]
    · congr 2
      cases others with
      | nil => rfl
      | cons next others =>
          have hinside := hplace.resolve_right (List.cons_ne_nil _ _)
          rw [startsFrom, List.takeWhile_cons_of_neg]
          rw [decide_eq_true_eq]
          omega
    · intro start hstart
      have hle := le_of_mem_startsFrom hstart
      rw [decide_eq_true_eq]
      omega
  show FilePos.mk (max 1 ((FilePos.passed _ _).length : Int)) (_ - (FilePos.passed _ _).getLast?.getD 0 + 1) = _
  rw [hpassed, List.length_append, length_startsFrom, List.getLast?_concat, Option.getD_some,
    FilePos.mk.injEq, List.length_singleton]
  omega

/-- Every offset of a text that is made of lines is inside one of them, or at the end of the last. -/
theorem exists_line {lines : List (List Char)} (hnonempty : lines ≠ []) {offset : Nat}
    (hoffset : offset ≤ Text.byteLength lines.flatten) :
    ∃ done line others place, lines = done ++ line :: others ∧
      offset = Text.byteLength done.flatten + place ∧ place ≤ Text.byteLength line ∧
      (place < Text.byteLength line ∨ others = []) := by
  induction lines generalizing offset with
  | nil => exact absurd rfl hnonempty
  | cons line rest ih =>
      rw [List.flatten_cons, Text.byteLength_append] at hoffset
      by_cases hinside : offset < Text.byteLength line
      · exact ⟨[], line, rest, offset, rfl, by simp, hinside.le, .inl hinside⟩
      · cases rest with
        | nil =>
            rw [List.flatten_nil, Text.byteLength_nil] at hoffset
            exact ⟨[], line, [], offset, rfl, by simp, hoffset, .inr rfl⟩
        | cons next others =>
            have hlater : offset - Text.byteLength line ≤ Text.byteLength (next :: others).flatten := by omega
            obtain ⟨done, last, behind, place, hsplit, hplace, hle, hend⟩ :=
              ih (List.cons_ne_nil next others) hlater
            refine ⟨line :: done, last, behind, place, by rw [hsplit]; rfl, ?_, hle, hend⟩
            rw [List.flatten_cons, Text.byteLength_append]
            omega

/-! ### Texts of ranges -/

/-- A part of a text together with the byte after it. -/
def throughNextByte (part : List Char) : List Char → Except Fault (List Char)
  | [] => .ok part
  | next :: _ => if next.utf8Size = 1 then .ok (part ++ [next]) else .error .badEncoding

theorem throughNextByte_eq_ok_iff {part after : List Char} :
    throughNextByte part after = .ok part ↔ after = [] := by
  cases after with
  | nil => exact iff_of_true rfl rfl
  | cons next after =>
      refine iff_of_false (fun hok => ?_) (List.cons_ne_nil _ _)
      rw [throughNextByte] at hok
      split at hok
      · have hlength := congrArg List.length (Except.ok.inj hok)
        rw [List.length_append, List.length_singleton] at hlength
        omega
      · cases hok

theorem linePart_throughNextByte (left part right : List Char) :
    linePart (left ++ part ++ right) (Text.byteLength left : Nat)
        (Text.byteLength left + Text.byteLength part + 1 : Nat) = throughNextByte part right := by
  rw [linePart, if_neg (by omega)]
  cases right with
  | nil => rw [List.append_nil, Text.exactSlice?_past_end, throughNextByte]
  | cons next right =>
      rw [Text.exactSlice?_through_next, throughNextByte]
      by_cases hsingle : next.utf8Size = 1
      · rw [if_pos hsingle, if_pos hsingle]
      · rw [if_neg hsingle, if_neg hsingle]

theorem linePart_open (line : List Char) (start : Int) :
    linePart line start (-1) = linePart line start (Text.byteLength line : Nat) := by
  rw [linePart, if_pos rfl, linePart, if_neg (by omega)]

theorem linePart_append_left (front : List Char) (start stop : Nat) (line : List Char) :
    linePart (front ++ line) (Text.byteLength front + start : Nat) (Text.byteLength front + stop : Nat) =
      linePart line start stop := by
  rw [linePart, if_neg (by omega), linePart, if_neg (by omega), Text.exactSlice?, Text.exactSlice?,
    Text.sliceBytes_append_left]

theorem linePart_append_right {start stop : Nat} {line : List Char} (hle : start ≤ stop)
    (hstop : stop ≤ Text.byteLength line) (back : List Char) :
    linePart (line ++ back) start stop = linePart line start stop := by
  rw [linePart, if_neg (by omega), linePart, if_neg (by omega), Text.exactSlice?, Text.exactSlice?,
    Text.sliceBytes_append_right hle hstop]

theorem linePart_whole (line : List Char) :
    linePart line (0 : Nat) (Text.byteLength line : Nat) = .ok line := by
  have hwhole := Text.exactSlice?_parts [] line []
  rw [List.append_nil, List.nil_append, Text.byteLength_nil, Nat.zero_add] at hwhole
  rw [linePart, if_neg (by omega), hwhole]

/-- The text of a stretch of two lines put together is that of both. -/
theorem linePart_append {start : Nat} {left : List Char} (hstart : start ≤ Text.byteLength left) (stop : Nat)
    (right : List Char) :
    linePart (left ++ right) start (Text.byteLength left + stop : Nat) = do
      let front ← linePart left start (Text.byteLength left : Nat)
      let back ← linePart right (0 : Nat) stop
      return front ++ back := by
  simp only [linePart, Text.exactSlice?]
  rw [if_neg (by omega), if_neg (by omega), if_neg (by omega), Text.sliceBytes_append hstart]
  generalize Text.sliceBytes start (Text.byteLength left : Nat) left = front
  generalize Text.sliceBytes (0 : Nat) stop right = back
  obtain ⟨front, torn⟩ := front
  obtain ⟨back, torn'⟩ := back
  cases torn <;> cases torn' <;> rfl


theorem slice_append {α : Type} (front middle back : List α) {start stop : Int}
    (hstart : start = front.length) (hstop : stop = front.length + middle.length) :
    slice (front ++ middle ++ back) start stop = middle := by
  rw [hstart, hstop, ← Int.natCast_add, slice, Text.clamp_natCast, Text.clamp_natCast, List.length_append,
    List.length_append, Nat.min_eq_left (by omega), Nat.min_eq_left (by omega), ← List.length_append,
    List.take_left, List.drop_left]

section RangeText

variable {lines middle : List (List Char)} {line first last : List Char} {start stop startColumn stopColumn : Int}

theorem rangeText_of_line (hslice : slice lines (start - 1) stop = [line]) :
    rangeText lines ⟨⟨start, startColumn⟩, ⟨stop, stopColumn⟩⟩ = linePart line (startColumn - 1) stopColumn := by
  simp only [rangeText, hslice]

theorem rangeText_of_lines (hslice : slice lines (start - 1) stop = first :: (middle ++ [last])) :
    rangeText lines ⟨⟨start, startColumn⟩, ⟨stop, stopColumn⟩⟩ = do
      let front ← linePart first (startColumn - 1) (-1)
      let back ← linePart last 0 stopColumn
      return front ++ middle.flatten ++ back := by
  obtain ⟨second, rest, hlater⟩ := List.exists_cons_of_ne_nil (List.concat_ne_nil last middle)
  have hmiddle : (second :: rest).dropLast = middle := by rw [← hlater, List.dropLast_concat]
  have hlast : (second :: rest).getLast (List.cons_ne_nil _ _) = last := by
    simp only [← hlater, List.getLast_concat]
  simp only [rangeText, hslice, hlater, hmiddle, hlast]

end RangeText

theorem rangeText_within (done : List (List Char)) (line : List Char) (others : List (List Char))
    (start stop : Nat) :
    rangeText (done ++ line :: others) ⟨⟨done.length + 1, start + 1⟩, ⟨done.length + 1, stop + 1⟩⟩ =
      linePart line start (stop + 1 : Nat) := by
  have hslice : slice (done ++ line :: others) ((done.length + 1 : Int) - 1) (done.length + 1 : Int) =
      [line] := by
    have := slice_append done [line] others (Int.add_sub_cancel _ 1) rfl
    rwa [List.append_assoc] at this
  rw [rangeText_of_line hslice, Int.add_sub_cancel]
  rfl

theorem rangeText_across (done : List (List Char)) {first : List Char} (middle : List (List Char))
    (last : List Char) (others : List (List Char)) {start : Nat} (hstart : start ≤ Text.byteLength first)
    (stop : Nat) :
    rangeText (done ++ first :: middle ++ last :: others)
        ⟨⟨done.length + 1, start + 1⟩, ⟨(done ++ first :: middle).length + 1, stop + 1⟩⟩ =
      linePart ((first :: middle).flatten ++ last) start
        (Text.byteLength (first :: middle).flatten + stop + 1 : Nat) := by
  have hslice : slice (done ++ first :: middle ++ last :: others) ((done.length + 1 : Int) - 1)
      ((done ++ first :: middle).length + 1 : Int) = first :: (middle ++ [last]) := by
    have hstop : ((done ++ first :: middle).length + 1 : Int) =
        done.length + (first :: (middle ++ [last])).length := by
      simp only [List.length_append, List.length_cons, List.length_nil]
      omega
    have := slice_append done (first :: (middle ++ [last])) others (Int.add_sub_cancel _ 1) hstop
    simpa using this
  rw [rangeText_of_lines hslice, Int.add_sub_cancel, List.flatten_cons, List.append_assoc,
    Text.byteLength_append, Nat.add_assoc, Nat.add_assoc, linePart_append hstart,
    linePart_append (Nat.zero_le _), linePart_whole, linePart_open]
  simp only [bind_assoc, ok_bind, pure_bind, List.append_assoc]
  rfl

/-- The text of a range of lines is the one between the offsets that the range was made of, together with the
byte after them. -/
theorem rangeText_startsFrom (lines : List (List Char)) {start stop : Nat} (hle : start ≤ stop)
    (hstop : stop ≤ Text.byteLength lines.flatten) :
    rangeText lines
        ⟨FilePos.ofOffset (startsFrom 0 lines) start, FilePos.ofOffset (startsFrom 0 lines) stop⟩ =
      linePart lines.flatten start (stop + 1 : Nat) := by
  by_cases hempty : lines = []
  · subst hempty
    obtain rfl := Nat.le_zero.1 hstop
    obtain rfl := Nat.le_zero.1 hle
    rfl
  obtain ⟨done, first, others, place, rfl, rfl, hplace, hend⟩ := exists_line hempty (hle.trans hstop)
  rw [List.flatten_append, Text.byteLength_append] at hstop
  obtain ⟨distance, rfl⟩ := Nat.exists_eq_add_of_le hle
  -- The stop is on the line on which the range starts, or on a later one.
  have hrest : place + distance ≤ Text.byteLength (first :: others).flatten := by omega
  obtain ⟨middle, last, behind, place', hsplit, hplace', hle', hend'⟩ := exists_line (List.cons_ne_nil _ _) hrest
  have hposition : FilePos.ofOffset (startsFrom 0 (done ++ first :: others))
      (Text.byteLength done.flatten + (place + distance) : Nat) =
        ⟨(done ++ middle).length + 1, place' + 1⟩ := by
    rw [hsplit, ← List.append_assoc, hplace', ← Nat.add_assoc, ← Text.byteLength_append, ← List.flatten_append]
    exact ofOffset_startsFrom (done ++ middle) behind hend'
  have hback : linePart (middle.flatten ++ (last ++ behind.flatten)) place
      (Text.byteLength middle.flatten + place' + 1 : Nat) =
        linePart (middle.flatten ++ last) place (Text.byteLength middle.flatten + place' + 1 : Nat) := by
    rcases hend' with hinside | rfl
    · rw [← List.append_assoc]
      apply linePart_append_right (by omega)
      rw [Text.byteLength_append]
      omega
    · rw [List.flatten_nil, List.append_nil]
  rw [ofOffset_startsFrom done others hend, Nat.add_assoc (Text.byteLength done.flatten), hposition,
    List.flatten_append, Nat.add_assoc (Text.byteLength done.flatten), linePart_append_left, hplace', hsplit,
    List.flatten_append, List.flatten_cons, hback]
  cases middle with
  | nil =>
      obtain ⟨rfl, rfl⟩ := List.cons.inj hsplit
      simpa using rangeText_within done first others place place'
  | cons line middle =>
      obtain ⟨rfl, rfl⟩ := List.cons.inj hsplit
      rw [← List.append_assoc]
      exact rangeText_across done middle last behind hplace place'

section SourceText

variable {tree : FileTree} {root path content : String} {module : Value}

theorem sourceLines_of_read (hread : tree.read path = .ok content) :
    sourceLines tree path = .ok (Text.lines (Text.fileText content)) := by
  rw [sourceLines, hread]

theorem sourceText_bytes (hpath : Project.sourceOf? (some tree) root module true = .ok (some path))
    (hread : tree.read path = .ok content) (hreturn : '\r' ∉ content.toList) {start stop : Nat}
    (hle : start ≤ stop) (hstop : stop ≤ Text.byteLength content.toList) :
    sourceText (some tree) root module (FileRange.ofBytes (lineStarts content.toList) ⟨start, stop⟩) =
      linePart content.toList start (stop + 1 : Nat) := by
  have hlines := Text.flatten_lines content.toList
  rw [sourceText, hpath, ok_bind]
  simp only
  rw [sourceLines_of_read hread, ok_bind, Text.fileText, Text.unifyLineEnds_of_notMem hreturn]
  rw [← hlines] at hstop
  exact (rangeText_startsFrom _ hle hstop).trans (by rw [hlines])

theorem sourceText_parts (hpath : Project.sourceOf? (some tree) root module true = .ok (some path))
    (hread : tree.read path = .ok content) (hreturn : '\r' ∉ content.toList)
    {before part after : List Char} (hcontent : content.toList = before ++ part ++ after) :
    sourceText (some tree) root module (FileRange.ofBytes (lineStarts content.toList)
        ⟨(Text.byteLength before : Nat), (Text.byteLength (before ++ part) : Nat)⟩) =
      throughNextByte part after := by
  have hle : Text.byteLength before ≤ Text.byteLength (before ++ part) := by
    rw [Text.byteLength_append]
    omega
  have hstop : Text.byteLength (before ++ part) ≤ Text.byteLength content.toList := by
    rw [hcontent, Text.byteLength_append (before ++ part)]
    omega
  rw [sourceText_bytes hpath hread hreturn hle hstop, hcontent, Text.byteLength_append]
  exact linePart_throughNextByte before part after

end SourceText

/-- Between two offsets at which characters start, the text of a range of a source is that of its bytes exactly
if the range ends with the source. Otherwise the byte after the range is taken too: the next character if that is
a single byte, and a fault if it is not. -/
theorem range_text_exact_iff {tree : FileTree} {root path content : String} {module : Value}
    (hpath : Project.sourceOf? (some tree) root module true = .ok (some path))
    (hread : tree.read path = .ok content) (hreturn : '\r' ∉ content.toList) {start stop : Nat}
    (hstart : String.Pos.Raw.IsValid content ⟨start⟩) (hstop : String.Pos.Raw.IsValid content ⟨stop⟩)
    (hle : start ≤ stop) :
    ∃ range part, FileRange.ofSpan (lineStarts content.toList) (some ⟨.int start, .int stop⟩) = .ok range ∧
      (String.ofList part).toByteArray = content.toByteArray.extract start stop ∧
      (sourceText (some tree) root module range = .ok part ↔ stop = content.utf8ByteSize) ∧
      (stop ≠ content.utf8ByteSize → ∃ next,
        (String.ofList (part ++ [next])).toByteArray =
          content.toByteArray.extract start (stop + next.utf8Size) ∧
        sourceText (some tree) root module range =
          if next.utf8Size = 1 then .ok (part ++ [next]) else .error .badEncoding) := by
  obtain ⟨before, part, after, hcontent, rfl, rfl⟩ := Text.exists_parts hstart hstop hle
  have htext := sourceText_parts hpath hread hreturn hcontent
  have hsize : content.utf8ByteSize = Text.byteLength (before ++ part) + Text.byteLength after := by
    rw [Text.utf8ByteSize_eq, hcontent, Text.byteLength_append]
  refine ⟨_, part, FileRange.ofSpan_bytes (lineStarts_fromZero content.toList) ⟨_, _⟩,
    Text.toByteArray_part hcontent, ?_, fun hmore => ?_⟩
  · rw [htext, throughNextByte_eq_ok_iff, hsize]
    constructor
    · rintro rfl
      rfl
    · exact fun hend => Text.eq_nil_of_byteLength_eq_zero (by omega)
  · cases after with
    | nil => exact absurd hsize.symm hmore
    | cons next after =>
        have hlonger : content.toList = before ++ (part ++ [next]) ++ after := by simp [hcontent]
        refine ⟨next, ?_, htext⟩
        rw [Text.toByteArray_part hlonger, ← List.append_assoc, Text.byteLength_append (before ++ part)]
        rfl

/-- A project with one source of two lines, in which two characters have more than one byte. -/
def twoLines : FileTree := ⟨["w"], [(["w", "proj", "A.lean"], "aé\nb→c\n")], []⟩

theorem sourceOf?_twoLines :
    Project.sourceOf? (some twoLines) "proj" (.arr [.str "A"]) true = .ok (some "proj/A.lean") := rfl

theorem read_twoLines : twoLines.read "proj/A.lean" = .ok "aé\nb→c\n" := FileTree.read_eq_ok_iff.2 rfl

theorem range_to_end_of_twoLines :
    String.Pos.Raw.IsValid "aé\nb→c\n" ⟨1⟩ ∧ String.Pos.Raw.IsValid "aé\nb→c\n" ⟨10⟩ ∧
      ∃ range part,
        FileRange.ofSpan (lineStarts "aé\nb→c\n".toList) (some ⟨.int 1, .int 10⟩) = .ok range ∧
        (String.ofList part).toByteArray = "aé\nb→c\n".toByteArray.extract 1 10 ∧
        sourceText (some twoLines) "proj" (.arr [.str "A"]) range = .ok part := by
  have hstart : String.Pos.Raw.IsValid "aé\nb→c\n" ⟨1⟩ :=
    String.Pos.Raw.isValid_iff_exists_append.2 ⟨"a", "é\nb→c\n", rfl, rfl⟩
  have hstop : String.Pos.Raw.IsValid "aé\nb→c\n" ⟨10⟩ :=
    String.Pos.Raw.isValid_iff_exists_append.2 ⟨"aé\nb→c\n", "", rfl, rfl⟩
  obtain ⟨range, part, hrange, hpart, hexact, -⟩ :=
    range_text_exact_iff sourceOf?_twoLines read_twoLines (by decide) hstart hstop (by decide)
  exact ⟨hstart, hstop, range, part, hrange, hpart, hexact.2 rfl⟩

/-- Bytes 1 to 8 are followed by a single byte, which is taken too, and byte 0 by the first of two, which is
no character. -/
theorem range_text_takes_next_byte :
    FileRange.ofSpan (lineStarts "aé\nb→c\n".toList) (some ⟨.int 1, .int 8⟩) = .ok ⟨⟨1, 2⟩, ⟨2, 5⟩⟩ ∧
      "é\nb→".toByteArray = "aé\nb→c\n".toByteArray.extract 1 8 ∧
      sourceText (some twoLines) "proj" (.arr [.str "A"]) ⟨⟨1, 2⟩, ⟨2, 5⟩⟩ = .ok "é\nb→c".toList ∧
      FileRange.ofSpan (lineStarts "aé\nb→c\n".toList) (some ⟨.int 0, .int 1⟩) = .ok ⟨⟨1, 1⟩, ⟨1, 2⟩⟩ ∧
      "a".toByteArray = "aé\nb→c\n".toByteArray.extract 0 1 ∧
      sourceText (some twoLines) "proj" (.arr [.str "A"]) ⟨⟨1, 1⟩, ⟨1, 2⟩⟩ = .error .badEncoding :=
  ⟨rfl, rfl, rfl, rfl, rfl, rfl⟩

end ProofDump.Theorem
