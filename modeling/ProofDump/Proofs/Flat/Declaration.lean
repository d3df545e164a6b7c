import ProofDump.Proofs.Flat.Data
import ProofDump.Proofs.Flat.Offsets

/-!
# What the data of a declaration shows

The data of a declaration shows its modifiers, its documentation comment and, in order, the ranges of its
parameters as they were loaded, and two declarations that differ in one of these or in the binder of a parameter
have different data. Only whether a declaration was marked noncomputable is not shown: the data never says so.
-/

namespace ProofDump.Flat

theorem intersperse_letters_injective {mark : Char} {first second : List Char}
    (heq : [mark].intercalate (first.map fun c => [c]) = [mark].intercalate (second.map fun c => [c])) :
    first = second := by
  induction first generalizing second with
  | nil =>
      cases second with
      | nil => rfl
      | cons c second => cases second <;> simp at heq
  | cons c first ih =>
      cases second with
      | nil => cases first <;> simp at heq
      | cons d second =>
          cases first with
          | nil => cases second <;> simp_all
          | cons e first =>
              cases second with
              | nil => simp at heq
              | cons f second =>
                  simp only [List.map_cons, List.intercalate_cons_cons, List.cons_append, List.nil_append,
                    List.cons.injEq, true_and] at heq
                  have hrest : e :: first = f :: second := ih heq.2
                  rw [heq.1, hrest]

namespace Shape

/-- Different values of the shape have different data. -/
def Faithful (shape : Shape) : Prop :=
  ∀ ⦃first second : Value⦄, shape.fits first = true → shape.fits second = true →
    shape.data first = shape.data second → first = second

theorem faithful_handed : (leaf .handed).Faithful := by
  intro first second _ _ heq
  exact heq

theorem data_reported {value : Value} (hfits : (leaf .reported).fits value = true) :
    (leaf .reported).data value = value := by
  cases value with
  | str text => rfl
  | _ => cases hfits

theorem faithful_reported : (leaf .reported).Faithful := by
  intro first second hfirst hsecond heq
  rwa [data_reported hfirst, data_reported hsecond] at heq

theorem faithful_lettered : (leaf .lettered).Faithful := by
  intro first second hfirst hsecond heq
  cases first with
  | str one =>
      cases second with
      | str other =>
          have hletters (text : String) : (Value.str text).members.map Value.reported =
              text.toList.map fun c => String.ofList [c] := by
            simp [Value.members, Value.loadedItems, Value.items, Value.reported, Function.comp_def]
          have htexts : ".".intercalate ((Value.str one).members.map Value.reported) =
              ".".intercalate ((Value.str other).members.map Value.reported) := Value.str.inj heq
          have hlists := congrArg String.toList htexts
          simp only [hletters, String.toList_intercalate, List.map_map, Function.comp_def, String.toList_ofList]
            at hlists
          rw [String.toList_inj.1 (intersperse_letters_injective hlists)]
      | _ => cases hsecond
  | _ => cases hfirst

/-- A range as it was loaded and as data. -/
inductive ShowsRange : Value → Value → Prop
  | absent : ShowsRange .null .null
  | offsets (start stop : Int) :
      ShowsRange (.arr [.int start, .int stop]) (.obj [("start", .int start), ("stop", .int stop)])

theorem showsRange_data {value : Value} (hfits : (optional range).fits value = true) :
    ShowsRange value ((optional range).data value) := by
  rw [fits, Bool.or_eq_true] at hfits
  rcases hfits with hnull | hspan
  · obtain rfl := Value.isNull_iff.1 hnull
    exact .absent
  · obtain ⟨start, stop, rfl⟩ := Reading.exists_of_fits_span hspan
    exact .offsets start stop

theorem faithful_optionalRange : (optional range).Faithful := by
  intro first second hfirst hsecond heq
  have hone := showsRange_data hfirst
  have hother := showsRange_data hsecond
  rw [heq] at hone
  generalize (optional range).data second = shown at hone hother
  cases hone with
  | absent =>
      cases hother
      rfl
  | offsets start stop =>
      cases hother
      rfl

/-- A record whose parts have faithful shapes has them as its data has them. -/
theorem parts_eq_of_data {parts : List (String × Shape)} {names : List String}
    (hnames : ∀ name ∈ names, ∃ shape, parts.lookup name = some (inner name shape) ∧ shape.Faithful)
    {first second : Value} (hfirst : (record parts).fits first = true)
    (hsecond : (record parts).fits second = true)
    (heq : (record parts).data first = (record parts).data second) :
    names.map first.part = names.map second.part := by
  apply List.map_congr_left
  intro name hname
  obtain ⟨shape, hlookup, hfaithful⟩ := hnames name hname
  apply hfaithful (fits_inner (fits_part name hfirst hlookup)) (fits_inner (fits_part name hsecond hlookup))
  rw [← data_innerPart name hlookup, ← data_innerPart name hlookup, heq]

end Shape

/-! ### Modifiers -/

/-- A documentation comment as it was loaded, and as data: its text and whether it is one. -/
inductive ShowsDocstring : Value → Value → Value → Prop
  | absent : ShowsDocstring .null .null .null
  | present (text : String) (isOne : Bool) : ShowsDocstring (.arr [.str text, .bool isOne]) (.str text) (.bool isOne)

theorem showsDocstring_data {modifiers : Value} (hfits : Shape.modifiers.fits modifiers = true) :
    ShowsDocstring (modifiers.part "docstring") ((Shape.modifiers.data modifiers).part "docstring")
      ((Shape.modifiers.data modifiers).part "has_docstring") := by
  have hdocstring : (Shape.optional (.leaf (.member 0))).fits (modifiers.part "docstring") = true :=
    Shape.fits_inner (Shape.fits_part "docstring" hfits rfl)
  have htext : (Shape.modifiers.data modifiers).part "docstring" =
      (Shape.optional (.leaf (.member 0))).data (modifiers.part "docstring") := Shape.data_innerPart "docstring" rfl modifiers
  have hisOne : (Shape.modifiers.data modifiers).part "has_docstring" =
      (Shape.optional (.leaf (.member 1))).data (modifiers.part "docstring") := Shape.data_innerPart "has_docstring" rfl modifiers
  rw [htext, hisOne]
  generalize modifiers.part "docstring" = docstring at hdocstring
  rw [Shape.fits, Bool.or_eq_true] at hdocstring
  rcases hdocstring with hnull | hmember
  · obtain rfl := Value.isNull_iff.1 hnull
    exact .absent
  · obtain ⟨text, isOne, rfl⟩ := Reading.exists_of_fits_member hmember
    exact .present text isOne

theorem docstring_eq_of_data {first second : Value} (hfirst : Shape.modifiers.fits first = true)
    (hsecond : Shape.modifiers.fits second = true)
    (heq : Shape.modifiers.data first = Shape.modifiers.data second) :
    first.part "docstring" = second.part "docstring" := by
  have hone := showsDocstring_data hfirst
  have hother := showsDocstring_data hsecond
  rw [heq] at hone
  generalize first.part "docstring" = one, second.part "docstring" = other,
    (Shape.modifiers.data second).part "docstring" = text,
    (Shape.modifiers.data second).part "has_docstring" = isOne at hone hother ⊢
  cases hone with
  | absent =>
      cases hother
      rfl
  | present text isOne =>
      cases hother
      rfl

/-! ### Declarations -/

/-- What describes a declaration, as it was loaded: modifiers and, for each parameter, ranges and binder. -/
def description (declaration : Value) : List Value × List (List Value) :=
  (["visibility", "compute_kind", "rec_kind", "is_unsafe", "docstring"].map (declaration.part "modifiers").part,
    (declaration.part "params").members.map fun param => ["ref", "id", "type", "binder_info"].map param.part)

/-- Data shows what describes a declaration. -/
structure Shows (declaration data : Value) : Prop where
  modifiers : ∀ name ∈ ["visibility", "compute_kind", "rec_kind", "is_unsafe"],
    (data.part "modifiers").part name = (declaration.part "modifiers").part name
  docstring : ShowsDocstring ((declaration.part "modifiers").part "docstring")
    ((data.part "modifiers").part "docstring") ((data.part "modifiers").part "has_docstring")
  ranges : List.Forall₂ (fun param shown => ∀ name ∈ ["ref", "id", "type"], Shape.ShowsRange (param.part name) (shown.part name))
    (declaration.part "params").members (data.part "params").members

theorem shows_data {declaration : Value} (hfits : Shape.declaration.fits declaration = true) :
    Shows declaration (Shape.declaration.data declaration) := by
  have hmodifiers : Shape.modifiers.fits (declaration.part "modifiers") = true :=
    Shape.fits_inner (Shape.fits_part "modifiers" hfits rfl)
  have hparams : (Shape.each Shape.param).fits (declaration.part "params") = true :=
    Shape.fits_inner (Shape.fits_part "params" hfits rfl)
  have hshownModifiers : (Shape.declaration.data declaration).part "modifiers" =
      Shape.modifiers.data (declaration.part "modifiers") := Shape.data_innerPart "modifiers" rfl declaration
  have hshownParams : (Shape.declaration.data declaration).part "params" =
      (Shape.each Shape.param).data (declaration.part "params") := Shape.data_innerPart "params" rfl declaration
  constructor
  · rw [hshownModifiers]
    have hreported (name : String)
        (hname : Shape.modifierParts.lookup name = some (.inner name (.leaf .reported))) :
        (Shape.modifiers.data (declaration.part "modifiers")).part name = (declaration.part "modifiers").part name :=
      (Shape.data_innerPart name hname _).trans
        (Shape.data_reported (Shape.fits_inner (Shape.fits_part name hmodifiers hname)))
    have hunsafe : (Shape.modifiers.data (declaration.part "modifiers")).part "is_unsafe" =
        (Shape.leaf .handed).data ((declaration.part "modifiers").part "is_unsafe") :=
      Shape.data_innerPart "is_unsafe" rfl _
    simp only [List.forall_mem_cons]
    exact ⟨hreported _ rfl, hreported _ rfl, hreported _ rfl, hunsafe, List.forall_mem_nil _⟩
  · rw [hshownModifiers]
    exact showsDocstring_data hmodifiers
  · rw [hshownParams]
    rw [Shape.fits, Bool.and_eq_true, List.all_eq_true] at hparams
    rw [Shape.data]
    show List.Forall₂ _ _ ((declaration.part "params").members.map _)
    rw [List.forall₂_map_right_iff, List.forall₂_same]
    intro param hparam
    have hrange (name : String)
        (hname : Shape.paramParts.lookup name = some (.inner name (.optional .range))) :
        Shape.ShowsRange (param.part name) ((Shape.param.data param).part name) := by
      rw [Shape.param, Shape.data_innerPart name hname]
      exact Shape.showsRange_data (Shape.fits_inner (Shape.fits_part name (hparams.2 param hparam) hname))
    simp only [List.forall_mem_cons]
    exact ⟨hrange _ rfl, hrange _ rfl, hrange _ rfl, List.forall_mem_nil _⟩

theorem modifiers_eq_of_data {first second : Value} (hfirst : Shape.modifiers.fits first = true)
    (hsecond : Shape.modifiers.fits second = true)
    (heq : Shape.modifiers.data first = Shape.modifiers.data second) :
    ["visibility", "compute_kind", "rec_kind", "is_unsafe", "docstring"].map first.part =
      ["visibility", "compute_kind", "rec_kind", "is_unsafe", "docstring"].map second.part := by
  have hfaithful : ∀ name ∈ ["visibility", "compute_kind", "rec_kind", "is_unsafe"],
      ∃ shape, Shape.modifierParts.lookup name = some (.inner name shape) ∧ shape.Faithful := by
    simp only [List.forall_mem_cons]
    exact ⟨⟨_, rfl, Shape.faithful_reported⟩, ⟨_, rfl, Shape.faithful_reported⟩, ⟨_, rfl, Shape.faithful_reported⟩,
      ⟨_, rfl, Shape.faithful_handed⟩, List.forall_mem_nil _⟩
  have hnames := Shape.parts_eq_of_data hfaithful hfirst hsecond heq
  have hdocstring := docstring_eq_of_data hfirst hsecond heq
  exact congrArg₂ (· ++ [·]) hnames hdocstring

theorem param_eq_of_data {first second : Value} (hfirst : Shape.param.fits first = true)
    (hsecond : Shape.param.fits second = true) (heq : Shape.param.data first = Shape.param.data second) :
    ["ref", "id", "type", "binder_info"].map first.part = ["ref", "id", "type", "binder_info"].map second.part := by
  apply Shape.parts_eq_of_data _ hfirst hsecond heq
  simp only [List.forall_mem_cons]
  exact ⟨⟨_, rfl, Shape.faithful_optionalRange⟩, ⟨_, rfl, Shape.faithful_optionalRange⟩,
    ⟨_, rfl, Shape.faithful_optionalRange⟩, ⟨_, rfl, Shape.faithful_lettered⟩, List.forall_mem_nil _⟩

theorem params_eq_of_data {first second : List Value} (hfirst : ∀ param ∈ first, Shape.param.fits param = true)
    (hsecond : ∀ param ∈ second, Shape.param.fits param = true)
    (heq : first.map Shape.param.data = second.map Shape.param.data) :
    (first.map fun param => ["ref", "id", "type", "binder_info"].map param.part) =
      second.map fun param => ["ref", "id", "type", "binder_info"].map param.part := by
  induction first generalizing second with
  | nil => rw [List.map_eq_nil_iff.1 heq.symm]
  | cons param first ih =>
      cases second with
      | nil => cases heq
      | cons other second =>
          obtain ⟨hparam, hfirst⟩ := List.forall_mem_cons.1 hfirst
          obtain ⟨hother, hsecond⟩ := List.forall_mem_cons.1 hsecond
          rw [List.map_cons, List.map_cons, List.cons.injEq] at heq
          exact congrArg₂ List.cons (param_eq_of_data hparam hother heq.1) (ih hfirst hsecond heq.2)

theorem description_eq_of_data {first second : Value} (hfirst : Shape.declaration.fits first = true)
    (hsecond : Shape.declaration.fits second = true)
    (heq : Shape.declaration.data first = Shape.declaration.data second) :
    description first = description second := by
  have hfits {declaration : Value} (hdeclaration : Shape.declaration.fits declaration = true) :
      Shape.modifiers.fits (declaration.part "modifiers") = true ∧
        ∀ param ∈ (declaration.part "params").members, Shape.param.fits param = true := by
    have hparams : (Shape.each Shape.param).fits (declaration.part "params") = true :=
      Shape.fits_inner (Shape.fits_part "params" hdeclaration rfl)
    rw [Shape.fits, Bool.and_eq_true, List.all_eq_true] at hparams
    exact ⟨Shape.fits_inner (Shape.fits_part "modifiers" hdeclaration rfl), hparams.2⟩
  have hmodifiers (declaration : Value) : (Shape.declaration.data declaration).part "modifiers" =
      Shape.modifiers.data (declaration.part "modifiers") := Shape.data_innerPart "modifiers" rfl declaration
  have hparams (declaration : Value) : (Shape.declaration.data declaration).part "params" =
      (Shape.each Shape.param).data (declaration.part "params") := Shape.data_innerPart "params" rfl declaration
  rw [description, description]
  congr 1
  · apply modifiers_eq_of_data (hfits hfirst).1 (hfits hsecond).1
    rw [← hmodifiers, ← hmodifiers, heq]
  · have hlists : (Shape.each Shape.param).data (first.part "params") =
        (Shape.each Shape.param).data (second.part "params") := by
      rw [← hparams, ← hparams, heq]
    rw [Shape.data, Shape.data] at hlists
    exact params_eq_of_data (hfits hfirst).2 (hfits hsecond).2 (Value.arr.inj hlists)

theorem exists_declaration {declaration : Value} (hfits : Shape.declaration.fits declaration = true) :
    ∃ form, Flat.declaration .integers declaration = .ok form ∧
      form.toValue = Shape.declaration.data declaration := by
  obtain ⟨form, hform⟩ := Shape.exists_form_of_fits .loaded hfits
  refine ⟨form, ?_, Shape.toValue_of_form hform⟩
  rw [← Shape.form_declaration, Shape.form_integers, hform]
  apply Shape.everywhere_of_fits _ hfits
  intro reading value hreading
  unfold Reading.fits at hreading
  split at hreading <;> first | rfl | cases hreading

/-- A declaration of the declared shape has data that shows its description, and declarations with the same data have
the same description. The data never says noncomputable. -/
theorem data_shows_description (declaration : Value) (hfits : Shape.declaration.fits declaration = true) :
    ∃ form, Flat.declaration .integers declaration = .ok form ∧
      Shows declaration form.toValue ∧
      (form.toValue.part "modifiers").part "is_noncomputable" = .bool false ∧
      ∀ other otherForm, Shape.declaration.fits other = true →
        Flat.declaration .integers other = .ok otherForm → otherForm.toValue = form.toValue →
          description other = description declaration := by
  obtain ⟨form, hform, hdata⟩ := exists_declaration hfits
  refine ⟨form, hform, ?_, ?_, ?_⟩
  · rw [hdata]
    exact shows_data hfits
  · have hmodifiers : form.toValue.part "modifiers" = Shape.modifiers.data (declaration.part "modifiers") := by
      rw [hdata]
      exact Shape.data_innerPart "modifiers" rfl declaration
    have hfixed : (Shape.modifiers.data (declaration.part "modifiers")).part "is_noncomputable" =
        (Shape.leaf (.fixed (.bool false))).data (declaration.part "modifiers") :=
      Shape.data_part "is_noncomputable" rfl _
    rw [hmodifiers, hfixed]
    rfl
  · intro other otherForm hother hotherForm heq
    obtain ⟨same, hsame, hotherData⟩ := exists_declaration hother
    rw [hotherForm] at hsame
    cases hsame
    apply description_eq_of_data hother hfits
    rw [← hotherData, heq, hdata]

/-- A definition with a documentation comment and two parameters, marked noncomputable or not. -/
def markedDefinition (isNoncomputable : Bool) : Value :=
  let excerpt : Value := .obj [("original", .bool true), ("range", .arr [.int 0, .int 40]), ("pp", .null)]
  .obj [("kind", .str "definition"), ("ref", excerpt), ("name", .texts ["A", "b"]), ("signature", excerpt),
    ("modifiers", .obj [("visibility", .str "private"), ("compute_kind", .str "regular"), ("rec_kind", .str "default"),
      ("is_unsafe", .bool true), ("docstring", .arr [.str "é\n", .bool true]),
      ("is_noncomputable", .bool isNoncomputable)]),
    ("params", .arr [
      .obj [("ref", .arr [.int 2, .int 9]), ("id", .null), ("type", .arr [.int 5, .int 8]), ("binder_info", .str "implicit")],
      .obj [("ref", .null), ("id", .null), ("type", .null), ("binder_info", .str "")]]),
    ("type", excerpt), ("value", .null),
    ("scope_info", .obj [("var_decls", .arr []), ("include_vars", .arr []), ("omit_vars", .arr []),
      ("curr_namespace", .texts ["A"]), ("open_decl", .arr [.obj [("simple", .obj [("namespace", .texts ["B"]),
        ("hiding", .arr [])])]])])]

theorem markedDefinition_shown :
    Shape.declaration.fits (markedDefinition true) = true ∧
      ∃ form, Flat.declaration .integers (markedDefinition true) = .ok form ∧
        Shows (markedDefinition true) form.toValue ∧
        (form.toValue.part "modifiers").part "is_noncomputable" = .bool false ∧
        ∀ other otherForm, Shape.declaration.fits other = true →
          Flat.declaration .integers other = .ok otherForm → otherForm.toValue = form.toValue →
            description other = description (markedDefinition true) :=
  ⟨rfl, data_shows_description (markedDefinition true) rfl⟩

/-- Two definitions that differ in whether they are noncomputable have the same data. -/
theorem noncomputable_not_shown :
    Shape.declaration.fits (markedDefinition true) = true ∧ Shape.declaration.fits (markedDefinition false) = true ∧
      ((markedDefinition true).part "modifiers").part "is_noncomputable" = .bool true ∧
      ((markedDefinition false).part "modifiers").part "is_noncomputable" = .bool false ∧
      Flat.declaration .integers (markedDefinition true) = Flat.declaration .integers (markedDefinition false) ∧
      (Flat.declaration .integers (markedDefinition true)).isOk = true :=
  ⟨rfl, rfl, rfl, rfl, rfl, rfl⟩

end ProofDump.Flat
