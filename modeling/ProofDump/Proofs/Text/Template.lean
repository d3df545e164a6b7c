import ProofDump.Proofs.Except
import ProofDump.Text.Template

/-!
# Filling templates

A template is filled piece by piece: what holds no dollar sign stays, and a name after a dollar sign gives way to
its value, which is not looked at again.
-/

namespace ProofDump.Text

variable {values : List (String × String)}

theorem fillFrom_drop (values : List (String × String)) (skip : Nat) (text : List Char) :
    fillFrom values skip text = fillFrom values 0 (text.drop skip) := by
  induction text generalizing skip with
  | nil =>
      rw [List.drop_nil]
      rfl
  | cons c text ih =>
      cases skip with
      | zero => rfl
      | succ skip => exact ih skip

theorem fillFrom_append {front rest : List Char} (hdollar : '$' ∉ front) :
    fillFrom values 0 (front ++ rest) = (front ++ ·) <$> fillFrom values 0 rest := by
  induction front with
  | nil => exact (id_map _).symm
  | cons c front ih =>
      rw [List.mem_cons, not_or] at hdollar
      rw [List.cons_append, fillFrom, if_neg (Ne.symm hdollar.1), ih hdollar.2, Functor.map_map]
      rfl

theorem placeholder?_of_nameAt? {text name : List Char} (hname : nameAt? text = some name) :
    placeholder? text = some (some name, name.length) := by
  unfold placeholder?
  split
  · cases hname
  · cases hname
  · rw [hname]
    rfl

/-- A name goes on up to the first character that cannot be part of it, and its value takes its place. -/
theorem fillFrom_name {name rest : List Char} {value : String} (hname : nameAt? (name ++ rest) = some name)
    (hvalue : values.lookup (String.ofList name) = some value) :
    fillFrom values 0 ('$' :: (name ++ rest)) = (value.toList ++ ·) <$> fillFrom values 0 rest := by
  have hsubstitute : substitute values (name ++ rest) = .ok (value.toList, name.length) := by
    simp only [substitute, placeholder?_of_nameAt? hname, hvalue]
  rw [fillFrom, if_pos rfl, hsubstitute, ok_bind]
  show (fillFrom values name.length (name ++ rest) >>= fun after => _) = _
  rw [fillFrom_drop, List.drop_left]
  rfl

end ProofDump.Text
