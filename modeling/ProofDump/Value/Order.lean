import ProofDump.Value.Basic

/-!
# Equality and order of values

Numbers are equal and ordered by value, whatever they are written as, and a truth value counts as zero
or one. Texts are ordered by code point, lists by their first difference. Objects are equal when they
have equal values under the same names in any order. All other pairs are different, and asking for
their order is a fault. The undefined number is not equal to itself, but as a member of something it
counts as the same.
-/

namespace ProofDump.Value

/-- Where a value lies among the numbers, if it is one. -/
def place? : Value → Option Place
  | bool b => some (.quotient b.toNat 1)
  | int n => some (.quotient n 1)
  | dec d => some d.place
  | _ => none

/-- Whether two numbers are equal. -/
def sameNumber (left right : Value) : Bool :=
  match left, right with
  | int m, int n => m == n
  | _, _ =>
    match left.place?, right.place? with
    | some a, some b => a.compare? b == some .eq
    | _, _ => false

/-- The value is the undefined number. -/
def isUndefined : Value → Bool
  | dec .undefined => true
  | _ => false

mutual

/-- Whether two values are equal. -/
def same : Value → Value → Bool
  | null, null => true
  | str s, str t => s == t
  | arr xs, arr ys => sameItems xs ys
  | obj xs, obj ys => xs.length == ys.length && sameFields xs ys
  | left, right => sameNumber left right

/-- Whether two lists are equal, member by member. -/
def sameItems : List Value → List Value → Bool
  | [], [] => true
  | x :: xs, y :: ys => ((x.isUndefined && y.isUndefined) || same x y) && sameItems xs ys
  | _, _ => false

/-- Whether every entry has an equal one under its name among `others`. -/
def sameFields : List (String × Value) → List (String × Value) → Bool
  | [], _ => true
  | (name, value) :: rest, others =>
    (match others.lookup name with
      | some other => (value.isUndefined && other.isUndefined) || same value other
      | none => false) && sameFields rest others

end

/-- Whether two members count as the same. -/
def sameMember (left right : Value) : Bool := (left.isUndefined && right.isUndefined) || same left right

/-- A relation of the order, with the sign that reports use for it. -/
inductive Relation where
  | less
  | atMost

namespace Relation

def sign : Relation → String
  | less => "<"
  | atMost => "<="

/-- Whether the relation holds of things that compare so. -/
def holds : Relation → Ordering → Bool
  | less, .lt => true
  | atMost, .lt => true
  | atMost, .eq => true
  | _, _ => false

end Relation

mutual

/-- Whether `left` stands in the relation to `right`. -/
def related (relation : Relation) : Value → Value → Except Fault Bool
  | int m, int n => .ok (relation.holds (compareOfLessAndEq m n))
  | str s, str t => .ok (relation.holds (compareOfLessAndEq s t))
  | arr xs, arr ys => relatedItems relation xs ys
  | left, right =>
    match left.place?, right.place? with
    | some a, some b =>
      match a.compare? b with
      | some order => .ok (relation.holds order)
      | none => .ok false
    | _, _ => .error (.unordered relation.sign left.kind right.kind)

/-- The relation on lists: the first members that differ decide, then the lengths. -/
def relatedItems (relation : Relation) : List Value → List Value → Except Fault Bool
  | [], [] => .ok (relation.holds .eq)
  | [], _ :: _ => .ok (relation.holds .lt)
  | _ :: _, [] => .ok (relation.holds .gt)
  | x :: xs, y :: ys =>
    if sameMember x y then relatedItems relation xs ys else related relation x y

end

/-- Whether `left` comes before `right`. -/
def less (left right : Value) : Except Fault Bool := related .less left right

/-- Whether `left` does not come after `right`. -/
def atMost (left right : Value) : Except Fault Bool := related .atMost left right

end ProofDump.Value
