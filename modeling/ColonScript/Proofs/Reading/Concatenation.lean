import ColonScript.Proofs.Reading.Statements
import Mathlib

/-!
# Programs one after the other

Statements need no separator, so a program can be followed by anything that does not start with a
token which continues its last statement.  The statements of the program are then read as if
nothing followed, although the ends of their bodies are found by counting ahead, and what follows
is read as if it stood alone, be it a program or not (`program_composes`).
-/

namespace ColonScript
namespace Reader

/-- After a program, what follows decides the outcome. -/
theorem Forms.program_append
    {ss : List Statement} {a b : List Lexeme} (h : Forms (.program ss) a b) :
    program (a ++ b) = (program b).map (ss ++ ·) := by
  induction ss generalizing a with
  | nil =>
      cases h
      rw [List.nil_append]
      cases program b <;> rfl
  | cons s ss ih =>
      cases h with
      | @cons _ _ a₁ a₂ _ hs hss =>
          have hgives : Gives (statement (a₁ ++ (a₂ ++ b))) s (a₂ ++ b) :=
            hs.isFormed fun _ _ hnext => hnext
          rw [List.append_assoc, program_of_gives hgives, ih hss]
          cases program b <;> rfl

/-- A program is read as if nothing followed it, unless an extending token does. -/
theorem program_append
    {ss : List Statement} {a b : List Lexeme} (h : program a = .ok ss)
    (hnext : ∀ token ∈ extending, next? b ≠ some token) :
    program (a ++ b) = (program b).map (ss ++ ·) := by
  have hforms := statements_take.2.2.2 a ss h
  exact (hforms.endsAlike (.of_next? hnext)).program_append

/-- Reading programs is compositional without separators.  If lexemes are read as a program and
what follows them does not start with an operator, an opening parenthesis or a later arm of a
conditional, then both together are read as the two programs one after the other if what follows
is a program, and are rejected with the very error of what follows if it is none. -/
theorem program_composes
    {ss : List Statement} {a b : List Lexeme} (h : program a = .ok ss)
    (hnext : ∀ token ∈ extending, next? b ≠ some token) :
    (∀ ss', program b = .ok ss' → program (a ++ b) = .ok (ss ++ ss')) ∧
      ∀ e, program b = .error e → program (a ++ b) = .error e := by
  refine ⟨fun ss' hsecond => ?_, fun e hsecond => ?_⟩
  · rw [program_append h hnext, hsecond]
    rfl
  · rw [program_append h hnext, hsecond]
    rfl

/-- A conditional with an empty body, and after it the wrappers of a function that has no
parameters: the count for the body of the first does not run on into the second, which is rejected
for its missing parentheses. -/
theorem conditional_before_broken_function :
    let a : List Lexeme := [⟨.keyword .lada, 1⟩, ⟨.identifier "x", 1⟩, ⟨.mark .colon, 1⟩,
      ⟨.mark .colon, 2⟩]
    let b : List Lexeme := [⟨.kind .fn, 3⟩, ⟨.identifier "f", 3⟩, ⟨.mark .equals, 3⟩,
      ⟨.mark .colon, 4⟩, ⟨.mark .colon, 4⟩]
    program a = .ok [.conditional [.mk (some (.name "x" 1)) [] 1] 1] ∧
      program b = .error ⟨.missingParameters (.mark .colon), 4⟩ ∧
      program (a ++ b) = .error ⟨.missingParameters (.mark .colon), 4⟩ := by
  intro a b
  have hfirst : program a = .ok [.conditional [.mk (some (.name "x" 1)) [] 1] 1] := by
    cbv
  have hsecond : program b = .error ⟨.missingParameters (.mark .colon), 4⟩ := by
    cbv
  exact ⟨hfirst, hsecond, (program_composes hfirst (by decide)).2 _ hsecond⟩

theorem eq_of_starting_of_mem_extending
    {token : Token} (hstart : starting token = true) (hmem : token ∈ extending) :
    token = .mark .minus ∨ token = .mark .leftParen := by
  simp only [extending, List.mem_cons, List.not_mem_nil, or_false] at hmem
  rcases hmem with rfl | rfl | rfl | rfl | rfl | rfl | rfl | rfl | rfl
  all_goals simp [starting] at hstart ⊢

/-- Of the extending tokens only a minus sign and an opening parenthesis start a statement. -/
theorem Forms.exists_cons_of_extending
    {s : Statement} {taken rest : List Lexeme} (h : Forms (.statement s) taken rest) :
    ∃ token line after, taken = ⟨token, line⟩ :: after ∧
      (token ∈ extending → token = .mark .minus ∨ token = .mark .leftParen) := by
  cases h with
  | function _ _ | declare _ _ | conditional _ _ _ | loop _ _ _ | returns _ =>
      exact ⟨_, _, _, rfl, by simp [extending]⟩
  | expression hvalue =>
      obtain ⟨token, line, after, hcons, hstart⟩ := hvalue.exists_starting rfl
      exact ⟨token, line, after, hcons, eq_of_starting_of_mem_extending hstart⟩

/-- A program that starts with neither of these two does not continue what is before it. -/
theorem next?_ne_of_program
    {ss : List Statement} {lexemes : List Lexeme} (h : program lexemes = .ok ss)
    (hminus : next? lexemes ≠ some (.mark .minus))
    (hparen : next? lexemes ≠ some (.mark .leftParen)) :
    ∀ token ∈ extending, next? lexemes ≠ some token := by
  intro token hmem hnext
  have hforms := statements_take.2.2.2 lexemes ss h
  cases hforms with
  | done => cases hnext
  | cons hs _ =>
      obtain ⟨first, line, after, rfl, hfirst⟩ := hs.exists_cons_of_extending
      obtain rfl : first = token := Option.some.inj hnext
      rcases hfirst hmem with rfl | rfl
      · exact hminus rfl
      · exact hparen rfl

end Reader
end ColonScript
