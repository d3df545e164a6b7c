import ProofDump.Proofs.Except
import ProofDump.Proofs.Value
import ProofDump.Steps.Extract

/-!
# What an entry was made of

An entry is made of a theorem declaration that is not private: `entryOf?_cases` says of which parts of it,
and that other declarations have none. Both editions read the same parts, and they differ only in the
state before the proof.
-/

namespace ProofDump.Steps

/-- The declaration is a theorem, and its name does not start as that of a private one does. -/
def IsPublicTheorem (declaration : Value) : Prop :=
  (declaration.part "kind").same (.str "theorem") = true ∧
    ∃ first, (declaration.part "name").loadedIndex 0 = .ok first ∧ first.same (.str "_private") = false

/-- The parts of an entry are those of the declaration. -/
structure Reads (edition : Edition) (lines : LineStarts) (roots : List Root) (terms : List Term)
    (declaration : Value) (entry : Entry) : Prop where
  name : (declaration.part "name").joinWith "." = .ok entry.name
  range : FileRange.ofValue lines ((declaration.part "ref").part "range") = .ok entry.range
  roots : rootsWithin entry.range roots = .ok entry.roots
  signature : entry.signature = (declaration.part "signature").part "pp"
  signatureRange : FileRange.ofValue lines ((declaration.part "signature").part "range") =
    .ok entry.signatureRange
  proof : entry.proof = (declaration.part "value").part "pp"
  proofRange : FileRange.ofValue lines ((declaration.part "value").part "range") = .ok entry.proofRange
  before : stateBefore edition entry.range entry.name (declaration.part "name") terms = .ok entry.before
  type : entry.type = (declaration.part "type").part "pp"

variable {edition : Edition} {lines : LineStarts} {roots : List Root} {terms : List Term}
  {declaration : Value}

theorem entryOf?_cases {found : Option Entry}
    (hentry : entryOf? edition lines roots terms declaration = .ok found) :
    (found = none ∧ ¬ IsPublicTheorem declaration) ∨
      ∃ entry, found = some entry ∧ IsPublicTheorem declaration ∧
        Reads edition lines roots terms declaration entry := by
  unfold entryOf? at hentry
  replace ⟨_, hentry⟩ := Value.attr_bind_eq_ok.1 hentry
  by_cases htheorem : (declaration.part "kind").same (.str "theorem") = true
  · simp only [htheorem, Bool.not_true, Bool.false_eq_true, if_false] at hentry
    replace ⟨_, hentry⟩ := Value.attr_bind_eq_ok.1 hentry
    replace ⟨first, hfirst, hentry⟩ := bind_eq_ok.1 hentry
    cases hprivate : first.same (.str "_private") with
    | true =>
        simp only [hprivate, if_true] at hentry
        cases hentry
        refine .inl ⟨rfl, fun hpublic => ?_⟩
        obtain ⟨-, other, hother, hsame⟩ := hpublic
        cases hfirst.symm.trans hother
        cases hprivate.symm.trans hsame
    | false =>
        simp only [hprivate, Bool.false_eq_true, if_false] at hentry
        replace ⟨name, hname, hentry⟩ := bind_eq_ok.1 hentry
        replace ⟨_, hentry⟩ := Value.attr_bind_eq_ok.1 hentry
        replace ⟨_, hentry⟩ := Value.attr_bind_eq_ok.1 hentry
        replace ⟨range, hrange, hentry⟩ := bind_eq_ok.1 hentry
        replace ⟨own, hroots, hentry⟩ := bind_eq_ok.1 hentry
        replace ⟨_, hentry⟩ := Value.attr_bind_eq_ok.1 hentry
        replace ⟨_, hentry⟩ := Value.attr_bind_eq_ok.1 hentry
        replace ⟨_, hentry⟩ := Value.attr_bind_eq_ok.1 hentry
        replace ⟨signatureRange, hsignatureRange, hentry⟩ := bind_eq_ok.1 hentry
        replace ⟨_, hentry⟩ := Value.attr_bind_eq_ok.1 hentry
        replace ⟨_, hentry⟩ := Value.attr_bind_eq_ok.1 hentry
        replace ⟨_, hentry⟩ := Value.attr_bind_eq_ok.1 hentry
        replace ⟨proofRange, hproofRange, hentry⟩ := bind_eq_ok.1 hentry
        replace ⟨before, hbefore, hentry⟩ := bind_eq_ok.1 hentry
        replace ⟨_, hentry⟩ := Value.attr_bind_eq_ok.1 hentry
        replace ⟨_, hentry⟩ := Value.attr_bind_eq_ok.1 hentry
        cases hentry
        exact .inr ⟨_, rfl, ⟨htheorem, first, hfirst, hprivate⟩, ⟨hname, hrange, hroots, rfl,
          hsignatureRange, rfl, hproofRange, hbefore, rfl⟩⟩
  · simp only [htheorem, Bool.not_false, if_true] at hentry
    cases hentry
    exact .inl ⟨rfl, fun hpublic => htheorem hpublic.1⟩

end ProofDump.Steps
