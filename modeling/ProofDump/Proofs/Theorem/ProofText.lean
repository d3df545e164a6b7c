import Mathlib.Data.List.TakeWhile
import ProofDump.Proofs.Text.Blank
import ProofDump.Proofs.Theorem.Extract

/-!
# How much of a proof is exported

After the operator and the blanks behind it comes the body of a value: the word `by` and a tactic proof, or
a term. What is exported is the body without as many characters as the operator has, whatever they are.
After an assignment sign these are the two letters of `by`, so that a tactic proof is exported as it is. A
term loses its first letters, after every operator (`exported_proof_whole_iff`).
-/

namespace ProofDump.Theorem

/-- The text is an operator, blanks, and a body that does not start with a blank. -/
structure IsStatement (text : List Char) (operator : String) (body : List Char) : Prop where
  isOperator : operator ∈ operators
  parts : ∃ blanks, blanks ≠ [] ∧ (∀ c ∈ blanks, Text.isBlank c = true) ∧
    text = operator.toList ++ blanks ++ body
  letter : ∃ c ∈ body.head?, Text.isBlank c = false

/-- The proof that a body gives: what follows the word `by`, or else the body itself, without the blanks
around it. -/
def givenProof (body : List Char) : List Char :=
  if startsByTactic body then Text.strip (body.drop "by".length) else Text.stripRight body

theorem letters_of_operator {operator : String} (hoperator : operator ∈ operators) :
    operator.toList ≠ [] ∧ ∀ c ∈ operator.toList, Text.isBlank c = false := by
  have hparts : operator.toList.isEmpty = false ∧ operator.toList.any Text.isBlank = false := by
    rcases hoperator with _ | ⟨_, _ | ⟨_, _ | ⟨_, ⟨⟩⟩⟩⟩ <;> exact ⟨rfl, rfl⟩
  exact ⟨List.isEmpty_eq_false_iff.1 hparts.1,
    fun c hc => Bool.eq_false_iff.2 (List.any_eq_false.1 hparts.2 c hc)⟩

namespace IsStatement

variable {text body : List Char} {operator : String}

theorem head?_words (hstatement : IsStatement text operator body) :
    (Text.words text).head? = some operator.toList := by
  obtain ⟨hnonempty, hletters⟩ := letters_of_operator hstatement.isOperator
  obtain ⟨blanks, hblanks, hblank, rfl⟩ := hstatement.parts
  have hfirst : ∀ c ∈ (operator.toList ++ blanks ++ body).head?, Text.isBlank c = false := by
    rw [List.append_assoc, List.head?_append_of_ne_nil _ hnonempty]
    exact fun c hc => hletters c (List.mem_of_head? hc)
  rw [Text.head?_words_eq_some_iff hfirst]
  refine ⟨hnonempty, hletters, blanks ++ body, List.append_assoc _ _ _, fun c hc => ?_⟩
  rw [List.head?_append_of_ne_nil _ hblanks] at hc
  exact hblank c (List.mem_of_head? hc)

/-- With the operator one of the blanks is dropped, and then the others. -/
theorem afterOperator_eq (hstatement : IsStatement text operator body) :
    afterOperator operator text = Text.stripRight body := by
  obtain ⟨first, hfirst, hletter⟩ := hstatement.letter
  obtain ⟨blanks, hblanks, hblank, rfl⟩ := hstatement.parts
  obtain ⟨blank, blanks, rfl⟩ := List.exists_cons_of_ne_nil hblanks
  obtain ⟨rest, rfl⟩ := List.head?_eq_some_iff.1 hfirst
  have hkept : Text.stripRight (operator.toList ++ (blank :: blanks) ++ first :: rest) =
      operator.toList ++ (blank :: blanks) ++ first :: Text.stripRight rest := by
    rw [Text.stripRight_append List.mem_cons_self hletter, Text.stripRight_cons hletter]
  have hdropped : (operator.toList ++ (blank :: blanks) ++ first :: Text.stripRight rest).drop
      (operator.length + 1) = blanks ++ first :: Text.stripRight rest := by
    rw [List.append_assoc, ← String.length_toList, List.drop_append]
    simp
  rw [afterOperator, hkept, hdropped, Text.stripRight_cons hletter,
    Text.stripLeft_append_of_blanks (List.forall_mem_cons.1 hblank).2,
    Text.stripLeft_of_letter fun c hc => by cases hc; exact hletter]

end IsStatement

theorem startsByTactic_stripRight (body : List Char) :
    startsByTactic (Text.stripRight body) = startsByTactic body := by
  rw [startsByTactic, startsByTactic, Text.words_stripRight]

theorem startsByTactic_eq_true {body : List Char} (hletter : ∀ c ∈ body.head?, Text.isBlank c = false)
    (hby : startsByTactic body = true) : ∃ tail, body = 'b' :: 'y' :: tail := by
  have hword := of_decide_eq_true hby
  rw [Text.head?_words_eq_some_iff hletter] at hword
  obtain ⟨-, -, tail, hbody, -⟩ := hword
  exact ⟨tail, hbody⟩

theorem take_stripRight_iff {tail : List Char} (count : Nat) :
    (∀ c ∈ (Text.stripRight tail).take count, Text.isBlank c = true) ↔
      ∀ c ∈ tail.take count, Text.isBlank c = true := by
  obtain ⟨blanks, htail, hblanks⟩ := Text.exists_blanks_after tail
  have htake : tail.take count =
      (Text.stripRight tail).take count ++ blanks.take (count - (Text.stripRight tail).length) := by
    rw [← List.take_append, ← htail]
  rw [htake, List.forall_mem_append, and_iff_left]
  exact fun c hc => hblanks c (List.mem_of_mem_take hc)

/-- A term loses its first letter, whatever the operator is. -/
theorem proofText_ne_of_letter {operator : String} (hoperator : operator ∈ operators) {first : Char}
    (hletter : Text.isBlank first = false) (rest : List Char) :
    proofText operator (first :: rest) ≠ first :: rest := by
  obtain ⟨count, hcount⟩ : ∃ count, operator.length = count + 1 := by
    rcases hoperator with _ | ⟨_, _ | ⟨_, _ | ⟨_, ⟨⟩⟩⟩⟩
    · exact ⟨1, rfl⟩
    · exact ⟨0, rfl⟩
    · exact ⟨4, rfl⟩
  have hkept : Text.stripLeft (first :: rest) = first :: rest :=
    Text.stripLeft_of_letter fun c hc => by cases hc; exact hletter
  have hlost := Text.stripLeft_drop_ne hletter count rest
  rwa [hkept, ← hcount] at hlost

theorem proofText_by_eq_iff {operator : String} (hoperator : operator ∈ operators) (tail : List Char) :
    proofText operator ('b' :: 'y' :: tail) = Text.stripLeft tail ↔
      operator = ":=" ∨ operator = "where" ∧ ∀ c ∈ tail.take 3, Text.isBlank c = true := by
  rcases hoperator with _ | ⟨_, _ | ⟨_, _ | ⟨_, ⟨⟩⟩⟩⟩
  · exact iff_of_true rfl (.inl rfl)
  · -- Only one of the two letters of `by` is cut off.
    have hlost : Text.stripLeft tail ≠ Text.stripLeft ('y' :: tail) :=
      Text.stripLeft_drop_ne (by rfl) 0 tail
    exact iff_of_false hlost.symm (by simp)
  · have hcut : Text.stripLeft (tail.drop 3) = Text.stripLeft tail ↔ _ := Text.stripLeft_drop_eq_iff 3 tail
    exact hcut.trans (by simp)

/-- The exported text is the given proof exactly if what is cut off is the word `by` and blanks. -/
theorem proofText_eq_givenProof_iff {operator : String} {body : List Char}
    (hoperator : operator ∈ operators) (hletter : ∃ c ∈ body.head?, Text.isBlank c = false) :
    proofText operator (Text.stripRight body) = givenProof body ↔
      startsByTactic body = true ∧
        (operator = ":=" ∨
          operator = "where" ∧ ∀ c ∈ (body.drop 2).take 3, Text.isBlank c = true) := by
  obtain ⟨first, hfirst, hletter⟩ := hletter
  obtain ⟨rest, rfl⟩ := List.head?_eq_some_iff.1 hfirst
  rw [givenProof]
  cases hby : startsByTactic (first :: rest) with
  | false =>
      rw [if_neg Bool.false_ne_true, Text.stripRight_cons hletter]
      exact iff_of_false (proofText_ne_of_letter hoperator hletter _) (by simp)
  | true =>
      obtain ⟨tail, htail⟩ := startsByTactic_eq_true (fun c hc => by cases hc; exact hletter) hby
      rw [htail, if_pos rfl, Text.stripRight_cons (by rfl), Text.stripRight_cons (by rfl)]
      show _ = Text.strip tail ↔ _ ∧ (_ ∨ _ ∧ ∀ c ∈ tail.take 3, _)
      rw [← Text.stripLeft_stripRight, proofText_by_eq_iff hoperator, take_stripRight_iff,
        and_iff_right rfl]

theorem head?_words_of_word? {text word : String} (hword : word? (.str text) 0 = .ok (some word)) :
    (Text.words text.toList).head? = some word.toList := by
  cases hwords : Text.words text.toList with
  | nil => simp [word?, hwords] at hword
  | cons first rest =>
      have hnot : ¬ ((rest.length : Int) + 1 ≤ 0) := by omega
      simp [word?, hwords, Value.place, hnot] at hword
      simp [← hword]

theorem Reads.statement_eq {context : Context} {declaration : Value} {reading : Reading} {text : String}
    (hreads : Reads context declaration reading)
    (hvalue : (declaration.part "value").part "pp" = .str text) : reading.statement = .str text := by
  have hstatement := hreads.statement
  rw [hvalue] at hstatement
  exact (Except.ok.inj hstatement).symm

/-- The exported proof is the body without as many characters as the operator has. This is the whole proof
exactly if it is a tactic proof after an assignment sign, or one after `where` with blanks in the place of
the other three characters that are cut off. -/
theorem exported_proof_whole_iff {context : Context} {declaration : Value} {found : Theorem}
    {printed text operator : String} {body : List Char}
    (hextract : extract context declaration = .ok (some found, printed))
    (hvalue : (declaration.part "value").part "pp" = .str text)
    (hstatement : IsStatement text.toList operator body) :
    found.operator = operator ∧
      found.proofType = (if startsByTactic body then .tactic else .term) ∧
      found.proof.toList = Text.stripLeft ((Text.stripRight body).drop operator.length) ∧
      (found.proof.toList = givenProof body ↔
        startsByTactic body = true ∧
          (operator = ":=" ∨
            operator = "where" ∧ ∀ c ∈ (body.drop 2).take 3, Text.isBlank c = true)) := by
  obtain ⟨reading, hreads, hchosen⟩ := extract_eq_some hextract
  have htext := hreads.statement_eq hvalue
  have hoperator : reading.operator = operator := by
    have hword := hreads.operator
    rw [htext] at hword
    have hsame := (head?_words_of_word? hword).symm.trans hstatement.head?_words
    exact String.toList_injective (Option.some.inj hsame)
  have hrest : reading.rest = Text.stripRight body := by
    rw [Reading.rest, htext, hoperator]
    exact hstatement.afterOperator_eq
  have hproof : found.operator = reading.operator ∧
      found.proofType = (if reading.byTactic then .tactic else .term) ∧
      found.proof.toList = proofText reading.operator reading.rest := by
    cases hchosen <;> exact ⟨rfl, rfl, String.toList_ofList⟩
  rw [Reading.byTactic, hrest, hoperator, startsByTactic_stripRight] at hproof
  refine ⟨hproof.1, hproof.2.1, hproof.2.2, ?_⟩
  rw [hproof.2.2]
  exact proofText_eq_givenProof_iff hstatement.isOperator hstatement.letter

/-- A theorem `a` with the given text for its value. -/
def theoremWithValue (text : String) : Value :=
  .obj [("kind", .str "theorem"), ("name", .arr [.str "a"]), ("ref", .obj [("range", .arr [.int 0, .int 20])]),
    ("signature", .obj [("pp", .str "True"), ("range", .arr [.int 8, .int 9])]),
    ("value", .obj [("pp", .str text), ("range", .arr [.int 10, .int 20])])]

/-- One line, on which the name `a` stands for a theorem. -/
def oneTermContext : Context where
  files := none
  root := ""
  module := .arr [.str "M"]
  lines := ⟨[0], []⟩
  roots := []
  terms := [⟨⟨⟨1, 9⟩, ⟨1, 10⟩⟩, .str "a", .str "True"⟩]

theorem spacedTactic_isStatement : IsStatement "where by   rfl\n".toList "where" "by   rfl\n".toList where
  isOperator := by decide
  parts := ⟨[' '], by decide, List.all_eq_true.1 rfl, rfl⟩
  letter := ⟨'b', rfl, rfl⟩

theorem spacedTactic_exported_whole :
    ∃ found printed, extract oneTermContext (theoremWithValue "where by   rfl\n") = .ok (some found, printed) ∧
      IsStatement "where by   rfl\n".toList "where" "by   rfl\n".toList ∧
      found.proofType = .tactic ∧ found.proof.toList = givenProof "by   rfl\n".toList ∧
      givenProof "by   rfl\n".toList = "rfl".toList := by
  have hextract : ∃ found printed, extract oneTermContext (theoremWithValue "where by   rfl\n") =
      .ok (some found, printed) := ⟨_, _, rfl⟩
  obtain ⟨found, printed, hextract⟩ := hextract
  obtain ⟨-, htype, -, hwhole⟩ := exported_proof_whole_iff hextract rfl spacedTactic_isStatement
  exact ⟨found, printed, hextract, spacedTactic_isStatement, htype, hwhole.2 ⟨rfl, .inr ⟨rfl, List.all_eq_true.1 rfl⟩⟩, rfl⟩

/-- Of the term `rfl` only the last letter is exported. -/
theorem term_exported_without_first_letters :
    ∃ found printed, extract oneTermContext (theoremWithValue ":= rfl") = .ok (some found, printed) ∧
      IsStatement ":= rfl".toList ":=" "rfl".toList ∧ startsByTactic "rfl".toList = false ∧
      found.proof = "l" ∧ givenProof "rfl".toList = "rfl".toList :=
  ⟨_, _, rfl, ⟨by decide, ⟨[' '], by decide, List.all_eq_true.1 rfl, rfl⟩, ⟨'r', rfl, rfl⟩⟩, rfl, rfl, rfl⟩

end ProofDump.Theorem
