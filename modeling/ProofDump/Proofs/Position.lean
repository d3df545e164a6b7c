import Mathlib.Algebra.Order.Ring.Int
import Mathlib.Data.List.TakeWhile
import ProofDump.Position

/-!
# Offsets and positions are ordered alike

A report compares lines and columns where the dump compared offsets. The two comparisons agree as soon
as the list of line starts begins with zero: the lines passed on the way to an offset are a beginning of
the lines passed on the way to a later one, so a later offset is on a later line, or on the same line in
a later column. Nothing is asked of the later line starts, not even that they ascend, since a position
only looks at the longest beginning of the list with no start after it.

The rest of the theory reaches positions through `ofOffset_before_iff`, `ofOffset_atMost_iff` and
`FileRange.covers_ofBytes`: ranges of lines and columns contain each other exactly when the byte ranges
they are made of do.
-/

namespace ProofDump

/-- Line starts as dumps list them: offsets only, the first of which, if there is one, is zero. -/
structure LineStarts.FromZero (lines : LineStarts) : Prop where
  offsets : lines.rest = []
  first : ∀ start ∈ lines.starts.head?, start = 0

/-! ### Byte ranges -/

/-- The bytes of a source from `start` up to, but without, `stop`. -/
structure ByteRange where
  start : Int
  stop : Int
  deriving DecidableEq, Repr

namespace ByteRange

instance : Membership Int ByteRange where
  mem range offset := range.start ≤ offset ∧ offset < range.stop

theorem mem_iff {range : ByteRange} {offset : Int} :
    offset ∈ range ↔ range.start ≤ offset ∧ offset < range.stop := Iff.rfl

def covers (range other : ByteRange) : Bool :=
  range.start ≤ other.start && other.stop ≤ range.stop

theorem covers_iff {range other : ByteRange} :
    range.covers other = true ↔ range.start ≤ other.start ∧ other.stop ≤ range.stop := by
  simp only [covers, Bool.and_eq_true, decide_eq_true_eq]

/-- There are no negative offsets, and at least one byte. -/
def IsProper (range : ByteRange) : Prop := 0 ≤ range.start ∧ range.start < range.stop

instance (range : ByteRange) : Decidable range.IsProper := inferInstanceAs (Decidable (_ ∧ _))

/-- No byte is in both ranges. -/
def Apart (range other : ByteRange) : Prop := ∀ offset ∈ range, offset ∉ other

theorem apart_iff {range other : ByteRange} :
    range.Apart other ↔ min range.stop other.stop ≤ max range.start other.start := by
  constructor
  · intro hapart
    by_contra hlt
    refine hapart (max range.start other.start) ?_ ?_
    · exact ⟨by omega, by omega⟩
    · exact ⟨by omega, by omega⟩
  · intro hle offset hrange hother
    rw [mem_iff] at hrange hother
    omega

instance (range other : ByteRange) : Decidable (range.Apart other) := decidable_of_iff _ apart_iff.symm

theorem covers_trans {outer middle inner : ByteRange} (houter : outer.covers middle = true)
    (hinner : middle.covers inner = true) : outer.covers inner = true := by
  rw [covers_iff] at houter hinner ⊢
  omega

theorem Apart.of_covers {range other inner : ByteRange} (hapart : range.Apart other)
    (hcovers : other.covers inner = true) : range.Apart inner := by
  intro offset hrange hinner
  rw [covers_iff] at hcovers
  rw [mem_iff] at hinner
  exact hapart offset hrange ⟨by omega, by omega⟩

theorem Apart.covers_eq_false {range other : ByteRange} (hapart : range.Apart other)
    (hother : other.start < other.stop) : range.covers other = false := by
  rw [Bool.eq_false_iff, Ne, covers_iff]
  intro hcovers
  exact hapart other.start ⟨hcovers.1, by omega⟩ ⟨le_refl _, hother⟩

def value (range : ByteRange) : Value := .arr [.int range.start, .int range.stop]

def ofValue? : Value → Option ByteRange
  | .arr [.int start, .int stop] => some ⟨start, stop⟩
  | _ => none

end ByteRange

/-! ### Positions of offsets -/

namespace FilePos

theorem before_iff {left right : FilePos} :
    left.before right = true ↔
      left.line < right.line ∨ left.line = right.line ∧ left.column < right.column := by
  simp only [before, Bool.or_eq_true, Bool.and_eq_true, decide_eq_true_eq, beq_iff_eq]

theorem before_irrefl (pos : FilePos) : pos.before pos = false := by
  rw [Bool.eq_false_iff, Ne, before_iff]
  omega

theorem before_asymm {left right : FilePos} (hbefore : left.before right = true) :
    right.before left = false := by
  rw [Bool.eq_false_iff, Ne, before_iff]
  rw [before_iff] at hbefore
  omega

/-- The starts of the lines passed on the way to an offset. -/
def passed (starts : List Int) (offset : Int) : List Int := starts.takeWhile (· ≤ offset)

theorem ofOffset_line (starts : List Int) (offset : Int) :
    (ofOffset starts offset).line = max 1 ((passed starts offset).length : Int) := rfl

theorem ofOffset_column (starts : List Int) (offset : Int) :
    (ofOffset starts offset).column = offset - (passed starts offset).getLast?.getD 0 + 1 := rfl

theorem passed_isPrefix (starts : List Int) (offset : Int) : passed starts offset <+: starts :=
  List.takeWhile_prefix _

theorem le_of_mem_passed {starts : List Int} {offset start : Int}
    (hmem : start ∈ passed starts offset) : start ≤ offset := by
  simpa using List.mem_takeWhile_imp hmem

/-- Whatever line is passed before an offset is passed before every later one. -/
theorem passed_prefix_passed (starts : List Int) {offset later : Int} (hle : offset ≤ later) :
    passed starts offset <+: passed starts later := by
  unfold passed
  induction starts with
  | nil => exact List.prefix_rfl
  | cons start rest ih =>
      by_cases hstart : start ≤ offset
      · rw [List.takeWhile_cons_of_pos (by simpa using hstart),
          List.takeWhile_cons_of_pos (by simpa using hstart.trans hle)]
        exact (List.prefix_cons_inj start).2 ih
      · rw [List.takeWhile_cons_of_neg (by simpa using hstart)]
        exact List.nil_prefix

theorem eq_zero_of_passed_singleton {starts : List Int} (hfirst : ∀ start ∈ starts.head?, start = 0)
    {offset start : Int} (hpassed : passed starts offset = [start]) : start = 0 := by
  obtain ⟨rest, hrest⟩ := passed_isPrefix starts offset
  rw [hpassed] at hrest
  refine hfirst start ?_
  rw [← hrest]
  rfl

theorem ofOffset_before_of_lt {starts : List Int} (hfirst : ∀ start ∈ starts.head?, start = 0)
    {offset later : Int} (hlt : offset < later) :
    (ofOffset starts offset).before (ofOffset starts later) = true := by
  obtain ⟨more, hmore⟩ := passed_prefix_passed starts hlt.le
  rw [before_iff, ofOffset_line, ofOffset_line, ofOffset_column, ofOffset_column]
  match hearly : passed starts offset, more with
  | early, [] =>
      -- Both offsets are on the same line.
      rw [hearly, List.append_nil] at hmore
      rw [← hmore]
      right
      exact ⟨rfl, by omega⟩
  | [], [start] =>
      -- The earlier offset is before all lines, which counts as on the first.
      rw [hearly, List.nil_append] at hmore
      have hzero := eq_zero_of_passed_singleton hfirst hmore.symm
      rw [← hmore, hzero]
      right
      exact ⟨rfl, by simpa using hlt⟩
  | [], _ :: _ :: others =>
      left
      rw [← hmore, hearly]
      simp only [List.nil_append, List.length_cons, List.length_nil]
      omega
  | _ :: early, _ :: others =>
      left
      rw [← hmore, hearly]
      simp only [List.length_append, List.length_cons]
      omega

/-- Positions are ordered as the offsets are. -/
theorem ofOffset_before_iff {starts : List Int} (hfirst : ∀ start ∈ starts.head?, start = 0)
    (offset other : Int) :
    (ofOffset starts offset).before (ofOffset starts other) = true ↔ offset < other := by
  refine ⟨fun hbefore => ?_, ofOffset_before_of_lt hfirst⟩
  by_contra hnot
  rcases Int.lt_or_eq_of_le (Int.not_lt.1 hnot) with hlt | heq
  · rw [before_asymm (ofOffset_before_of_lt hfirst hlt)] at hbefore
    exact Bool.false_ne_true hbefore
  · rw [heq, before_irrefl] at hbefore
    exact Bool.false_ne_true hbefore

theorem ofOffset_inj {starts : List Int} (hfirst : ∀ start ∈ starts.head?, start = 0)
    {offset other : Int} : ofOffset starts offset = ofOffset starts other ↔ offset = other := by
  refine ⟨fun heq => ?_, fun heq => by rw [heq]⟩
  have hnot := before_irrefl (ofOffset starts offset)
  have hforth := (ofOffset_before_iff hfirst offset other).not
  have hback := (ofOffset_before_iff hfirst other offset).not
  rw [← heq, hnot] at hforth hback
  simp only [Bool.false_eq_true, not_false_eq_true, true_iff] at hforth hback
  omega

theorem ofOffset_atMost_iff {starts : List Int} (hfirst : ∀ start ∈ starts.head?, start = 0)
    (offset other : Int) :
    (ofOffset starts offset).atMost (ofOffset starts other) = true ↔ offset ≤ other := by
  rw [atMost, Bool.or_eq_true, beq_iff_eq, ofOffset_before_iff hfirst, ofOffset_inj hfirst]
  omega

theorem passed_ne_nil {starts : List Int} (hfirst : ∀ start ∈ starts.head?, start = 0)
    (hstarts : starts ≠ []) {offset : Int} (hoffset : 0 ≤ offset) : passed starts offset ≠ [] := by
  cases starts with
  | nil => exact absurd rfl hstarts
  | cons start rest =>
      have hzero : start = 0 := hfirst start rfl
      rw [passed, List.takeWhile_cons_of_pos (by simpa [hzero] using hoffset)]
      exact List.cons_ne_nil _ _

theorem start_add_column {starts : List Int} (hfirst : ∀ start ∈ starts.head?, start = 0)
    (hstarts : starts ≠ []) {offset : Int} (hoffset : 0 ≤ offset) :
    ∃ start, starts[((ofOffset starts offset).line - 1).toNat]? = some start ∧ start ≤ offset ∧
      start + (ofOffset starts offset).column - 1 = offset := by
  have hpassed := passed_ne_nil hfirst hstarts hoffset
  obtain ⟨start, hstart⟩ := List.getLast?_isSome.2 hpassed |> Option.isSome_iff_exists.1
  have hline : ((ofOffset starts offset).line - 1).toNat = (passed starts offset).length - 1 := by
    have hlength := List.length_pos_iff.2 hpassed
    rw [ofOffset_line]
    omega
  refine ⟨start, ?_, le_of_mem_passed (List.mem_of_getLast? hstart), ?_⟩
  · obtain ⟨rest, hrest⟩ := passed_isPrefix starts offset
    have hlength := List.length_pos_iff.2 hpassed
    rw [hline, ← hrest, List.getElem?_append_left (by rw [hrest]; omega), ← hstart,
      List.getLast?_eq_getElem?, hrest]
  · rw [ofOffset_column, hstart, Option.getD_some]
    omega

theorem one_le_ofOffset_line (starts : List Int) (offset : Int) :
    1 ≤ (ofOffset starts offset).line := by
  rw [ofOffset_line]
  omega

theorem ofOffset_line_le {starts : List Int} (hstarts : starts ≠ []) (offset : Int) :
    (ofOffset starts offset).line ≤ starts.length := by
  have hpassed := (passed_isPrefix starts offset).length_le
  have hlength := List.length_pos_iff.2 hstarts
  rw [ofOffset_line]
  omega

end FilePos

/-! ### Ranges of byte ranges -/

theorem LineStarts.FromZero.position {lines : LineStarts} (hlines : lines.FromZero) (offset : Int) :
    lines.position offset = .ok (.ofOffset lines.starts offset) := by
  rw [LineStarts.position, hlines.offsets]
  rfl

namespace FileRange

theorem covers_iff {range other : FileRange} :
    range.covers other = true ↔
      range.start.atMost other.start = true ∧ other.stop.atMost range.stop = true := by
  rw [covers, Bool.and_eq_true]

def ofBytes (lines : LineStarts) (bytes : ByteRange) : FileRange :=
  ⟨.ofOffset lines.starts bytes.start, .ofOffset lines.starts bytes.stop⟩

theorem ofSpan_bytes {lines : LineStarts} (hlines : lines.FromZero) (bytes : ByteRange) :
    ofSpan lines (some ⟨.int bytes.start, .int bytes.stop⟩) = .ok (ofBytes lines bytes) := by
  have hend (offset : Int) (otherwise : FilePos) :
      endOf lines (.int offset) otherwise = .ok (.ofOffset lines.starts offset) :=
    hlines.position offset
  rw [ofSpan, hend, hend]
  rfl

theorem ofValue_bytes {lines : LineStarts} (hlines : lines.FromZero) (bytes : ByteRange) :
    ofValue lines bytes.value = .ok (ofBytes lines bytes) := ofSpan_bytes hlines bytes

/-- Ranges of lines and columns contain each other exactly when their byte ranges do. -/
theorem covers_ofBytes {lines : LineStarts} (hlines : lines.FromZero) (outer inner : ByteRange) :
    (ofBytes lines outer).covers (ofBytes lines inner) = outer.covers inner := by
  rw [Bool.eq_iff_iff, covers_iff, ByteRange.covers_iff]
  exact and_congr (FilePos.ofOffset_atMost_iff hlines.first _ _)
    (FilePos.ofOffset_atMost_iff hlines.first _ _)

theorem whole_covers {lines : LineStarts} (hlines : lines.FromZero) (hstarts : lines.starts ≠ [])
    {bytes : ByteRange} (hstart : 0 ≤ bytes.start) :
    (whole lines).covers (ofBytes lines bytes) = true := by
  obtain ⟨start, -, hle, hcolumn⟩ := FilePos.start_add_column hlines.first hstarts hstart
  have hfirst := FilePos.one_le_ofOffset_line lines.starts bytes.start
  have hlast := FilePos.ofOffset_line_le hstarts bytes.stop
  rw [covers_iff, FilePos.atMost, FilePos.atMost, Bool.or_eq_true, Bool.or_eq_true, beq_iff_eq,
    FilePos.before_iff, FilePos.before_iff]
  constructor
  · rcases hfirst.lt_or_eq with hlt | heq
    · exact .inl (.inl hlt)
    · rcases (show 1 ≤ (FilePos.ofOffset lines.starts bytes.start).column by omega).lt_or_eq
        with hlater | hsame
      · exact .inl (.inr ⟨heq, hlater⟩)
      · right
        show (⟨1, 1⟩ : FilePos) = .ofOffset lines.starts bytes.start
        rw [FilePos.mk.injEq]
        exact ⟨heq, hsame⟩
  · left
    left
    show (FilePos.ofOffset lines.starts bytes.stop).line < (lines.size : Int) + 1
    rw [LineStarts.size, hlines.offsets]
    simp only [List.length_nil, Nat.add_zero]
    omega

end FileRange

/-- Lines and columns say what the offsets say: positions are ordered alike, a position leads back to its
offset, ranges contain each other exactly when their byte ranges do, and the range of no span contains
every range of bytes. -/
theorem positions_agree_with_offsets (lines : LineStarts) (hlines : lines.FromZero) :
    (∀ p q : Int, ∃ left right, lines.position p = .ok left ∧ lines.position q = .ok right ∧
      (left.before right = true ↔ p < q)) ∧
    (lines.starts ≠ [] → ∀ p : Int, 0 ≤ p → ∃ pos start, lines.position p = .ok pos ∧
      1 ≤ pos.line ∧ pos.line ≤ lines.starts.length ∧ 1 ≤ pos.column ∧
      lines.starts[(pos.line - 1).toNat]? = some start ∧ start + pos.column - 1 = p) ∧
    (∀ a b c d : Int, ∃ outer inner, FileRange.ofSpan lines (some ⟨.int a, .int b⟩) = .ok outer ∧
      FileRange.ofSpan lines (some ⟨.int c, .int d⟩) = .ok inner ∧
      (outer.covers inner = true ↔ a ≤ c ∧ d ≤ b)) ∧
    (lines.starts ≠ [] → ∀ a b : Int, 0 ≤ a → ∃ all inner, FileRange.ofSpan lines none = .ok all ∧
      FileRange.ofSpan lines (some ⟨.int a, .int b⟩) = .ok inner ∧ all.covers inner = true) := by
  refine ⟨fun p q => ?_, fun hstarts p hp => ?_, fun a b c d => ?_, fun hstarts a b ha => ?_⟩
  · exact ⟨_, _, hlines.position p, hlines.position q, FilePos.ofOffset_before_iff hlines.first p q⟩
  · obtain ⟨start, hstart, hle, hcolumn⟩ := FilePos.start_add_column hlines.first hstarts hp
    exact ⟨_, start, hlines.position p, FilePos.one_le_ofOffset_line _ _,
      FilePos.ofOffset_line_le hstarts p, by omega, hstart, hcolumn⟩
  · refine ⟨_, _, FileRange.ofSpan_bytes hlines ⟨a, b⟩, FileRange.ofSpan_bytes hlines ⟨c, d⟩, ?_⟩
    rw [FileRange.covers_ofBytes hlines, ByteRange.covers_iff]
  · exact ⟨_, _, rfl, FileRange.ofSpan_bytes hlines ⟨a, b⟩, FileRange.whole_covers hlines hstarts ha⟩

/-- At a start that two lines share, an offset is on the later line. -/
theorem positions_at_shared_line_start :
    (LineStarts.mk [0, 4, 4, 9] []).FromZero ∧
      (LineStarts.mk [0, 4, 4, 9] []).position 4 = .ok ⟨3, 1⟩ ∧
      ∃ left right, (LineStarts.mk [0, 4, 4, 9] []).position 3 = .ok left ∧
        (LineStarts.mk [0, 4, 4, 9] []).position 4 = .ok right ∧
        (left.before right = true ↔ (3 : Int) < 4) := by
  have hlines : (LineStarts.mk [0, 4, 4, 9] []).FromZero := ⟨rfl, by simp⟩
  exact ⟨hlines, by rfl, (positions_agree_with_offsets _ hlines).1 3 4⟩

end ProofDump
