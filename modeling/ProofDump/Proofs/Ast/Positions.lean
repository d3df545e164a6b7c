import ProofDump.Ast.Range
import ProofDump.Proofs.Except

/-!
# Ranges of parts lie within each other

A walk through a value collects the positions noted in the tables that it reaches. What it comes to is told from
what is noted there, without the order of the walk (`collects_positions`): the integers that the noted values stand
for, or the fault of a noted value that stands for none. A part of a value notes nothing that the value does not, so
its range lies within that of the value.
-/

namespace ProofDump

/-- A part of a value: the value itself, or what is reached through members of lists and entries of tables. -/
inductive Value.Reaches : Value → Value → Prop
  | refl (value : Value) : Reaches value value
  | member {items : List Value} {item inner : Value} (hitem : item ∈ items) (hinner : Reaches item inner) :
      Reaches (.arr items) inner
  | entry {fields : Fields} {entry : String × Value} {inner : Value} (hentry : entry ∈ fields)
      (hinner : Reaches entry.2 inner) : Reaches (.obj fields) inner

theorem Value.Reaches.trans {outer value inner : Value} (hvalue : outer.Reaches value)
    (hinner : value.Reaches inner) : outer.Reaches inner := by
  induction hvalue with
  | refl => exact hinner
  | member hitem _ ih => exact .member hitem (ih hinner)
  | entry hentry _ ih => exact .entry hentry (ih hinner)

/-- A truth value counts as a number. -/
def Value.isNumber : Value → Bool
  | int _ | bool _ | dec _ => true
  | _ => false

namespace Ast

/-! ### Noted positions -/

/-- A table has an account of its source text attached to it. -/
def HasAccount (fields account : Fields) : Prop :=
  ∃ info, Fields.get? fields "info" = some (.obj info) ∧ Fields.get? info "original" = some (.obj account)

/-- A value is the start in the account attached to a table, or its end if there is a start. -/
def Attached (fields : Fields) (value : Value) : Prop :=
  ∃ account start, HasAccount fields account ∧ Fields.get? account "pos" = some start ∧
    (value = start ∨ Fields.get? account "endPos" = some value)

/-- A table notes a value as a position: it is a number under one of the names of positions, or stands in the account
attached to the table. -/
def Notes (fields : Fields) (value : Value) : Prop :=
  (∃ name ∈ positionNames, Fields.get? fields name = some value ∧ value.isNumber = true) ∨ Attached fields value

/-- A value is noted as a position in a table that is part of another value. -/
def NotedIn (outer value : Value) : Prop := ∃ fields, outer.Reaches (.obj fields) ∧ Notes fields value

theorem NotedIn.of_reaches {outer inner value : Value} (hinner : outer.Reaches inner) (hvalue : NotedIn inner value) :
    NotedIn outer value := by
  obtain ⟨fields, hfields, hnotes⟩ := hvalue
  exact ⟨fields, hinner.trans hfields, hnotes⟩

theorem notedIn_obj_iff {fields : Fields} {value : Value} :
    NotedIn (.obj fields) value ↔ Notes fields value ∨ ∃ entry ∈ fields, NotedIn entry.2 value := by
  constructor
  · rintro ⟨inner, hreaches, hnotes⟩
    cases hreaches with
    | refl => exact .inl hnotes
    | entry hentry hinner => exact .inr ⟨_, hentry, inner, hinner, hnotes⟩
  · rintro (hnotes | ⟨entry, hentry, hvalue⟩)
    · exact ⟨fields, .refl _, hnotes⟩
    · exact hvalue.of_reaches (.entry hentry (.refl _))

theorem notedIn_arr_iff {items : List Value} {value : Value} :
    NotedIn (.arr items) value ↔ ∃ item ∈ items, NotedIn item value := by
  constructor
  · rintro ⟨inner, hreaches, hnotes⟩
    cases hreaches with
    | member hitem hinner => exact ⟨_, hitem, inner, hinner, hnotes⟩
  · rintro ⟨item, hitem, hvalue⟩
    exact hvalue.of_reaches (.member hitem (.refl _))

/-! ### Collecting integers -/

/-- What two walks come to, one after the other. -/
def inTurn (first second : Except Fault (List Int)) : Except Fault (List Int) := do
  return (← first) ++ (← second)

/-- A walk past some values comes to the integers that they stand for, or to the fault of one of them. -/
def Collects (noted : Value → Prop) : Except Fault (List Int) → Prop
  | .ok positions =>
    (∀ value, noted value → ∃ position ∈ positions, value.toInteger = .ok position) ∧
      ∀ position ∈ positions, ∃ value, noted value ∧ value.toInteger = .ok position
  | .error fault => ∃ value, noted value ∧ value.toInteger = .error fault

namespace Collects

variable {noted others : Value → Prop} {first second : Except Fault (List Int)}

theorem congr (hcollects : Collects noted first) (hsame : ∀ value, others value ↔ noted value) :
    Collects others first := by
  rwa [show others = noted from funext fun value => propext (hsame value)]

theorem nothing (hnone : ∀ value, ¬ noted value) : Collects noted (.ok []) :=
  ⟨fun value hvalue => absurd hvalue (hnone value), List.forall_mem_nil _⟩

theorem single (value : Value) : Collects (· = value) (do return [← value.toInteger]) := by
  cases hinteger : value.toInteger with
  | error fault => exact ⟨value, rfl, hinteger⟩
  | ok position =>
      refine ⟨?_, List.forall_mem_singleton.2 ⟨value, rfl, hinteger⟩⟩
      rintro _ rfl
      exact ⟨position, List.mem_singleton_self _, hinteger⟩

theorem append (hfirst : Collects noted first) (hsecond : Collects others second) :
    Collects (fun value => noted value ∨ others value) (inTurn first second) := by
  cases first with
  | error fault =>
      obtain ⟨value, hvalue, hfault⟩ := hfirst
      exact ⟨value, .inl hvalue, hfault⟩
  | ok positions =>
      cases second with
      | error fault =>
          obtain ⟨value, hvalue, hfault⟩ := hsecond
          exact ⟨value, .inr hvalue, hfault⟩
      | ok more =>
          constructor
          · rintro value (hvalue | hvalue)
            · obtain ⟨position, hposition, hinteger⟩ := hfirst.1 value hvalue
              exact ⟨position, List.mem_append_left _ hposition, hinteger⟩
            · obtain ⟨position, hposition, hinteger⟩ := hsecond.1 value hvalue
              exact ⟨position, List.mem_append_right _ hposition, hinteger⟩
          · intro position hposition
            rcases List.mem_append.1 hposition with hposition | hposition
            · obtain ⟨value, hvalue, hinteger⟩ := hfirst.2 position hposition
              exact ⟨value, .inl hvalue, hinteger⟩
            · obtain ⟨value, hvalue, hinteger⟩ := hsecond.2 position hposition
              exact ⟨value, .inr hvalue, hinteger⟩

end Collects

/-! ### Positions of one table -/

theorem numberPosition?_eq (value : Value) :
    numberPosition? value = if value.isNumber then some <$> value.toInteger else .ok none := by
  cases value <;> rfl

theorem filterMapM_cons_eq_inTurn {f : String → Except Fault (Option Int)} (name : String) (names : List String) :
    (name :: names).filterMapM f = inTurn (Option.toList <$> f name) (names.filterMapM f) := by
  rw [List.filterMapM_cons]
  cases f name with
  | error fault => rfl
  | ok one =>
      cases one with
      | none =>
          show names.filterMapM f = inTurn (.ok []) (names.filterMapM f)
          cases names.filterMapM f <;> rfl
      | some position => rfl

theorem collects_name (fields : Fields) (name : String) :
    Collects (fun value => Fields.get? fields name = some value ∧ value.isNumber = true)
      (Option.toList <$> numberPosition? ((Fields.get? fields name).getD .null)) := by
  rw [numberPosition?_eq]
  cases hget : Fields.get? fields name with
  | none => exact .nothing fun value hvalue => by cases hvalue.1
  | some value =>
      rw [Option.getD_some]
      by_cases hnumber : value.isNumber = true
      · rw [if_pos hnumber]
        have hsingle : (Option.toList <$> some <$> value.toInteger) = do return [← value.toInteger] := by
          cases value.toInteger <;> rfl
        rw [hsingle]
        refine (Collects.single value).congr fun other => ?_
        rw [Option.some.injEq]
        exact ⟨fun hother => hother.1.symm, fun hother => ⟨hother.symm, hother ▸ hnumber⟩⟩
      · rw [if_neg hnumber]
        refine .nothing ?_
        rintro _ ⟨hvalue, hother⟩
        cases hvalue
        exact hnumber hother

theorem collects_entryPositions (fields : Fields) :
    Collects (fun value => ∃ name ∈ positionNames, Fields.get? fields name = some value ∧ value.isNumber = true)
      (entryPositions fields) := by
  rw [entryPositions]
  induction positionNames with
  | nil => exact .nothing fun value hvalue => by simp at hvalue
  | cons name names ih =>
      rw [filterMapM_cons_eq_inTurn]
      refine ((collects_name fields name).append ih).congr fun value => ?_
      rw [List.exists_mem_cons_iff]

theorem HasAccount.unique {fields account other : Fields} (haccount : HasAccount fields account)
    (hother : HasAccount fields other) : other = account := by
  obtain ⟨info, hinfo, horiginal⟩ := haccount
  obtain ⟨otherInfo, hotherInfo, hotherOriginal⟩ := hother
  rw [hinfo] at hotherInfo
  cases hotherInfo
  rw [horiginal] at hotherOriginal
  cases hotherOriginal
  rfl

theorem HasAccount.attached_iff {fields account : Fields} (haccount : HasAccount fields account) {value : Value} :
    Attached fields value ↔ ∃ start, Fields.get? account "pos" = some start ∧
      (value = start ∨ Fields.get? account "endPos" = some value) := by
  constructor
  · rintro ⟨other, start, hother, hattached⟩
    obtain rfl := haccount.unique hother
    exact ⟨start, hattached⟩
  · rintro ⟨start, hattached⟩
    exact ⟨account, start, haccount, hattached⟩

theorem collects_attachedPositions (fields : Fields) : Collects (Attached fields) (attachedPositions fields) := by
  rw [attachedPositions]
  split
  · rename_i info hinfo
    split
    · rename_i account horiginal
      have haccount : HasAccount fields account := ⟨info, hinfo, horiginal⟩
      split
      · rename_i hstart
        refine .nothing fun value hvalue => ?_
        obtain ⟨start, hsome, -⟩ := haccount.attached_iff.1 hvalue
        rw [hstart] at hsome
        cases hsome
      · rename_i start hstart hstop
        refine (Collects.single start).congr fun value => ?_
        rw [haccount.attached_iff, hstart, hstop]
        simp
      · rename_i start stop hstart hstop
        have hpair : (do return [← start.toInteger, ← stop.toInteger]) =
            inTurn (do return [← start.toInteger]) (do return [← stop.toInteger]) := by
          cases start.toInteger with
          | error fault => rfl
          | ok position => cases stop.toInteger <;> rfl
        rw [hpair]
        refine ((Collects.single start).append (.single stop)).congr fun value => ?_
        rw [haccount.attached_iff, hstart, hstop]
        simp [eq_comm]
    · rename_i hnone
      refine .nothing ?_
      rintro value ⟨account, start, ⟨other, hother, horiginal⟩, -⟩
      rw [hinfo] at hother
      cases hother
      exact hnone account horiginal
  · rename_i hnone
    refine .nothing ?_
    rintro value ⟨account, start, ⟨info, hinfo, -⟩, -⟩
    exact hnone info hinfo

/-! ### Positions of a whole value -/

theorem positions_obj (fields : Fields) :
    positions (.obj fields) =
      inTurn (inTurn (entryPositions fields) (attachedPositions fields)) (fieldPositions fields) := by
  rw [positions]
  cases entryPositions fields with
  | error fault => rfl
  | ok own => cases attachedPositions fields <;> rfl

mutual

theorem collects_positions : ∀ value, Collects (NotedIn value) (positions value)
  | .obj fields => by
      -- An attached account is read here and walked through as an entry too: `Collects` does not count repetitions.
      rw [positions_obj]
      exact (((collects_entryPositions fields).append (collects_attachedPositions fields)).append
        (collects_fieldPositions fields)).congr fun _ => notedIn_obj_iff
  | .arr items => by
      rw [positions]
      exact (collects_itemPositions items).congr fun _ => notedIn_arr_iff
  | .null | .bool _ | .int _ | .dec _ | .str _ => by
      refine .nothing ?_
      rintro value ⟨fields, hreaches, -⟩
      cases hreaches

theorem collects_itemPositions : ∀ items : List Value,
    Collects (fun value => ∃ item ∈ items, NotedIn item value) (itemPositions items)
  | [] => .nothing fun value hvalue => by simp at hvalue
  | item :: rest => by
      rw [itemPositions]
      refine ((collects_positions item).append (collects_itemPositions rest)).congr fun value => ?_
      rw [List.exists_mem_cons_iff]

theorem collects_fieldPositions : ∀ fields : List (String × Value),
    Collects (fun value => ∃ entry ∈ fields, NotedIn entry.2 value) (fieldPositions fields)
  | [] => .nothing fun value hvalue => by simp at hvalue
  | (name, value) :: rest => by
      rw [fieldPositions]
      refine ((collects_positions value).append (collects_fieldPositions rest)).congr fun value => ?_
      rw [List.exists_mem_cons_iff]

end

/-! ### Ranges -/

theorem span?_eq_none_iff {positions : List Int} : span? positions = none ↔ positions = [] := by
  cases positions with
  | nil => exact iff_of_true rfl rfl
  | cons first rest => exact iff_of_false (Option.some_ne_none _) (List.cons_ne_nil _ _)

theorem span?_eq_some_iff {positions : List Int} {start stop : Int} :
    span? positions = some (start, stop) ↔
      (start ∈ positions ∧ ∀ position ∈ positions, start ≤ position) ∧
        stop ∈ positions ∧ ∀ position ∈ positions, position ≤ stop := by
  rw [← List.min?_eq_some_iff, ← List.max?_eq_some_iff]
  cases positions with
  | nil => simp [span?]
  | cons first rest => simp [span?]

theorem range?_eq_ok_iff {value : Value} {range : Option (Int × Int)} :
    range? value = .ok range ↔ ∃ found, positions value = .ok found ∧ span? found = range := by
  rw [range?, bind_eq_ok]
  exact exists_congr fun found => and_congr_right fun _ => ⟨Except.ok.inj, congrArg Except.ok⟩

/-- A part of a value in which all positions can be read records no other positions than the value. -/
theorem exists_positions_subset {value inner : Value} {found : List Int} (hfound : positions value = .ok found)
    (hinner : value.Reaches inner) : ∃ others, positions inner = .ok others ∧ others ⊆ found := by
  have houter := collects_positions value
  have hcollects := collects_positions inner
  rw [hfound] at houter
  -- What the part notes is noted in the value, so it stands for one of the integers found there.
  have hread {noted : Value} (hnoted : NotedIn inner noted) :
      ∃ position ∈ found, noted.toInteger = .ok position := houter.1 noted (hnoted.of_reaches hinner)
  cases hothers : positions inner with
  | error fault =>
      rw [hothers] at hcollects
      obtain ⟨noted, hnoted, hfault⟩ := hcollects
      obtain ⟨position, -, hposition⟩ := hread hnoted
      rw [hfault] at hposition
      cases hposition
  | ok others =>
      rw [hothers] at hcollects
      refine ⟨others, rfl, fun position hposition => ?_⟩
      obtain ⟨noted, hnoted, hinteger⟩ := hcollects.2 position hposition
      obtain ⟨other, hother, hsame⟩ := hread hnoted
      rw [hinteger] at hsame
      cases hsame
      exact hother

theorem positions_eq_nil_iff {value : Value} : positions value = .ok [] ↔ ∀ noted, ¬ NotedIn value noted := by
  have hcollects := collects_positions value
  constructor
  · intro hnil noted hnoted
    rw [hnil] at hcollects
    obtain ⟨position, hposition, -⟩ := hcollects.1 noted hnoted
    cases hposition
  · intro hnone
    cases hfound : positions value with
    | error fault =>
        rw [hfound] at hcollects
        obtain ⟨noted, hnoted, -⟩ := hcollects
        exact absurd hnoted (hnone noted)
    | ok found =>
        rw [hfound] at hcollects
        refine congrArg Except.ok (List.eq_nil_iff_forall_not_mem.2 fun position hposition => ?_)
        obtain ⟨noted, hnoted, -⟩ := hcollects.2 position hposition
        exact hnone noted hnoted

/-- The range of a value covers the ranges of all its parts that have one, and reading the parts does not fail. Its
ends are integers that values noted in it stand for. A value has no range exactly if no table in it notes a
position. -/
theorem ranges_of_parts_nest (value : Value) :
    (∀ start stop, range? value = .ok (some (start, stop)) →
      (∀ inner, value.Reaches inner → range? inner = .ok none ∨
        ∃ innerStart innerStop, range? inner = .ok (some (innerStart, innerStop)) ∧
          start ≤ innerStart ∧ innerStart ≤ innerStop ∧ innerStop ≤ stop) ∧
      ∀ position ∈ [start, stop], ∃ fields noted, value.Reaches (.obj fields) ∧ Notes fields noted ∧
        noted.toInteger = .ok position) ∧
    (range? value = .ok none ↔ ∀ fields, value.Reaches (.obj fields) → ∀ noted, ¬ Notes fields noted) := by
  constructor
  · intro start stop hrange
    obtain ⟨found, hfound, hspan⟩ := range?_eq_ok_iff.1 hrange
    obtain ⟨⟨hstart, hleast⟩, hstop, hgreatest⟩ := span?_eq_some_iff.1 hspan
    constructor
    · intro inner hinner
      obtain ⟨others, hothers, hsubset⟩ := exists_positions_subset hfound hinner
      cases hinnerSpan : span? others with
      | none => exact .inl (range?_eq_ok_iff.2 ⟨others, hothers, hinnerSpan⟩)
      | some range =>
          obtain ⟨innerStart, innerStop⟩ := range
          obtain ⟨⟨hinnerStart, hinnerLeast⟩, hinnerStop, -⟩ := span?_eq_some_iff.1 hinnerSpan
          exact .inr ⟨innerStart, innerStop, range?_eq_ok_iff.2 ⟨others, hothers, hinnerSpan⟩,
            hleast _ (hsubset hinnerStart), hinnerLeast _ hinnerStop, hgreatest _ (hsubset hinnerStop)⟩
    · have hcollects := collects_positions value
      rw [hfound] at hcollects
      have hends : ∀ position ∈ [start, stop], position ∈ found :=
        List.forall_mem_cons.2 ⟨hstart, List.forall_mem_singleton.2 hstop⟩
      intro position hposition
      obtain ⟨noted, ⟨fields, hfields, hnotes⟩, hinteger⟩ := hcollects.2 position (hends position hposition)
      exact ⟨fields, noted, hfields, hnotes, hinteger⟩
  · rw [range?_eq_ok_iff]
    simp only [span?_eq_none_iff, exists_eq_right, positions_eq_nil_iff]
    constructor
    · intro hnone fields hfields noted hnotes
      exact hnone noted ⟨fields, hfields, hnotes⟩
    · rintro hnone noted ⟨fields, hfields, hnotes⟩
      exact hnone fields hfields noted hnotes

/-! ### Numbers and numerals -/

/-- An account whose start is a numeral, which only the table that it is attached to notes. -/
def mixedAccount : Value := .obj [("pos", .str "2"), ("endPos", .dec (.ofDigits false 95 (-1)))]

def mixedValue : Value :=
  .obj [("pos", .int 5), ("args", .arr [.obj [("info", .obj [("original", mixedAccount)])], .bool true])]

theorem mixedValue_reaches : mixedValue.Reaches mixedAccount :=
  .entry (.tail _ (.head _)) (.member (.head _) (.entry (.head _) (.entry (.head _) (.refl _))))

theorem range?_mixedValue : range? mixedValue = .ok (some (2, 9)) := rfl

theorem range?_mixedAccount : range? mixedAccount = .ok (some (9, 9)) := rfl

theorem mixedValue_ranges_nest :
    range? mixedValue = .ok (some (2, 9)) ∧
      (mixedValue.Reaches mixedAccount ∧ range? mixedAccount = .ok (some (9, 9))) ∧
      (∀ inner, mixedValue.Reaches inner → range? inner = .ok none ∨
        ∃ innerStart innerStop, range? inner = .ok (some (innerStart, innerStop)) ∧
          2 ≤ innerStart ∧ innerStart ≤ innerStop ∧ innerStop ≤ 9) ∧
      ∀ position ∈ [2, 9], ∃ fields noted, mixedValue.Reaches (.obj fields) ∧ Notes fields noted ∧
        noted.toInteger = .ok position :=
  ⟨range?_mixedValue, ⟨mixedValue_reaches, range?_mixedAccount⟩,
    (ranges_of_parts_nest mixedValue).1 2 9 range?_mixedValue⟩

end Ast

end ProofDump
