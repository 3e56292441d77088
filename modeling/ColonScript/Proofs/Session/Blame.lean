import ColonScript.Proofs.Lexing.Munch
import ColonScript.Proofs.Lines.Layout
import ColonScript.Proofs.Running.StackNeutral
import ColonScript.Proofs.Session.Batch

/-!
# Failures name lines of the source

Every failure of a session reports a line that is there.  Text that cannot be cut into tokens is
reported on the line where it starts.  The readers and the runner take their lines from very
different places, but never make one up: they treat aligned lexemes alike, also if only the lines
that lexemes carry go together, so the line that they report is one of those.
-/

namespace ColonScript

/-! ## Lines of rejections -/

/-- A lexeme is aligned with itself as soon as its line goes with itself. -/
theorem aligned_self
    {L : Nat → Nat → Prop} {lexemes : List Lexeme}
    (h : ∀ lexeme ∈ lexemes, L lexeme.line lexeme.line) :
    List.Forall₂ (Lexeme.Aligned L) lexemes lexemes :=
  List.forall₂_same.mpr fun lexeme hmem => ⟨rfl, h lexeme hmem⟩

/-- A program is rejected on the line of one of its lexemes. -/
theorem Reader.exists_lexeme_of_program_eq_error
    {lexemes : List Lexeme} {e : ReadError} (h : program lexemes = .error e) :
    ∃ lexeme ∈ lexemes, lexeme.line = e.line := by
  have hself := aligned_self (L := fun k l => k = l ∧ ∃ lexeme ∈ lexemes, lexeme.line = k)
    fun lexeme hmem => ⟨rfl, lexeme, hmem, rfl⟩
  have hread := statements_steady.2.2.2 lexemes lexemes hself
  rw [h] at hread
  cases hread with
  | error he => exact he.line.2

/-- When lines are renamed, a rejection moves with the lexemes: its line is not a fixed one. -/
theorem Reader.program_moved_of_error
    {lexemes : List Lexeme} {e : ReadError} (h : program lexemes = .error e) (φ : Nat → Nat) :
    program (lexemes.map (Lexeme.moved φ)) = .error ⟨e.cause, φ e.line⟩ := by
  have hmoved : List.Forall₂ (Lexeme.Aligned fun k l => φ k = l) lexemes
      (lexemes.map (Lexeme.moved φ)) :=
    List.forall₂_map_right_iff.mpr (List.forall₂_same.mpr fun _ _ => ⟨rfl, rfl⟩)
  have hread := statements_steady.2.2.2 _ _ hmoved
  rw [h] at hread
  generalize program (lexemes.map (Lexeme.moved φ)) = outcome at hread
  cases hread with
  | @error _ e' he => rw [he.cause, he.line]

/-! ## Lines of failed runs -/

/-- The line that a failure is reported on. -/
def Failure.line : Failure → Nat
  | read e => e.line
  | run e => e.line

theorem onLine_eq
    (line : Nat) (message : String) :
    onLine line message =
      "Error on line " ++ toString line ++ ":" ++ (" " ++ message ++ ".") := by
  have hassoc (a b c d e f : String) :
      a ++ b ++ (c ++ d) ++ e ++ f = a ++ b ++ c ++ (d ++ e ++ f) := by
    simp only [String.append_assoc]
  exact hassoc "Error on line " (toString line) ":" " " message "."

/-- The message of a failure starts with its line. -/
theorem Failure.message_eq
    (failure : Failure) :
    ∃ complaint,
      failure.message = "Error on line " ++ toString failure.line ++ ":" ++ complaint := by
  cases failure with
  | read e => exact ⟨_, onLine_eq e.line e.cause.message⟩
  | run e => exact ⟨_, onLine_eq e.line e.cause.message⟩

/-- A line that a token of one of the source texts carries. -/
def TokenLine (sources : List String) (line : Nat) : Prop :=
  ∃ source ∈ sources, ∃ lexemes, lex source = .ok lexemes ∧ ∃ lexeme ∈ lexemes, lexeme.line = line

/-- Lines go together only if they are the same and a token of the source texts carries it.  What is
aligned with itself in this way has no other lines. -/
def OnTokenLines (sources : List String) (k l : Nat) : Prop :=
  k = l ∧ TokenLine sources k

namespace Machine

variable {sources : List String} {m : Machine} {source : String}

/-- A source text that runs in a machine with token lines only comes to an end with token lines
only. -/
theorem Aligned.perform_tokenLine
    (hm : m.Aligned (OnTokenLines sources) m) (hmem : source ∈ sources)
    {lexemes : List Lexeme} (hlex : lex source = .ok lexemes) :
    SameEnd (OnTokenLines sources) (Ending.Aligned (OnTokenLines sources))
      (m.perform source) (m.perform source) := by
  refine hm.perform ?_
  rw [hlex]
  refine .ok (aligned_self fun lexeme hlexeme => ⟨rfl, ?_⟩)
  exact ⟨source, hmem, lexemes, hlex, lexeme, hlexeme, rfl⟩

/-- A text that cannot be cut is rejected and changes nothing. -/
theorem run_of_lex_eq_error
    {e : ReadError} (h : lex source = .error e) (m : Machine) :
    m.run source = (.error (.read e), m) := by
  rw [run, perform, readProgram, h]
  rfl

/-- Running a source text leaves a machine with token lines only. -/
theorem Aligned.run_tokenLine
    (hm : m.Aligned (OnTokenLines sources) m) (hmem : source ∈ sources) :
    (m.run source).2.Aligned (OnTokenLines sources) (m.run source).2 := by
  cases hlex : lex source with
  | error e =>
      rw [run_of_lex_eq_error hlex]
      exact hm
  | ok lexemes => exact (hm.perform_tokenLine hmem hlex).machine

/-- So does running several of them, one after the other. -/
theorem Aligned.runAll_tokenLine
    {earlier : List String} (hm : m.Aligned (OnTokenLines sources) m)
    (hmem : ∀ source ∈ earlier, source ∈ sources) :
    (m.runAll earlier).Aligned (OnTokenLines sources) (m.runAll earlier) := by
  induction earlier generalizing m with
  | nil => exact hm
  | cons source earlier ih =>
      obtain ⟨hfirst, hrest⟩ := List.forall_mem_cons.mp hmem
      exact ih (hm.run_tokenLine hfirst) hrest

/-- A source text that fails has failed before its value is looked at. -/
theorem perform_fst_of_run_fst
    {failure : Failure} (h : (m.run source).1 = .error failure) :
    (m.perform source).1 = .error failure :=
  congrArg Prod.fst (perform_of_run_error (Prod.ext h rfl))

/-- A run fails on a line that a token carries. -/
theorem Aligned.tokenLine_of_run_error
    (hm : m.Aligned (OnTokenLines sources) m) (hmem : source ∈ sources) {e : RunError}
    (h : (m.run source).1 = .error (.run e)) :
    TokenLine sources e.line := by
  cases hlex : lex source with
  | error e' =>
      rw [run_of_lex_eq_error hlex] at h
      cases h
  | ok lexemes =>
      have houtcome := (hm.perform_tokenLine hmem hlex).outcome
      rw [perform_fst_of_run_fst h] at houtcome
      cases houtcome with
      | error he =>
          cases he with
          | run herror => exact herror.line.2

/-- A source text that is cut into lexemes and rejected is rejected as a program. -/
theorem program_of_run_eq_read
    {lexemes : List Lexeme} {e : ReadError} (hlex : lex source = .ok lexemes)
    (h : (m.run source).1 = .error (.read e)) :
    Reader.program lexemes = .error e := by
  have hread : readProgram source = Reader.program lexemes := by
    rw [readProgram, hlex]
    rfl
  have hfirst := perform_fst_of_run_fst h
  rw [perform, hread] at hfirst
  cases hprogram : Reader.program lexemes with
  | error e' =>
      rw [hprogram] at hfirst
      cases hfirst
      rfl
  | ok ss =>
      rw [hprogram, attempt] at hfirst
      cases hrun : runBlock ss m <;> rw [hrun] at hfirst <;> cases hfirst

/-- Every failure names a line of the source.  Whatever source texts a session has run, a source
text that fails next is reported under `Error on line N:`.  If it cannot be cut, `N` is the line
on which the text stands that starts no token.  If it is rejected later, `N` is the line of one of
its tokens; if it fails while it runs, `N` is the line of a token of this text or of an earlier
one.  The readers make up no line: lexemes are rejected on the line of one of them, and when all
lines are renamed, on the renamed line.  So the fixed line that is reported where a statement is
asked for and nothing is left never shows. -/
theorem failures_name_source_lines :
    (∀ (sink : Sink) (earlier : List String) (source : String) (failure : Failure),
      (run source (runAll earlier { initial with sink := sink })).1 = .error failure →
        (∃ complaint,
          failure.message = "Error on line " ++ toString failure.line ++ ":" ++ complaint) ∧
        (∀ e, lex source = .error e → failure = .read e ∧
          ∃ before found after, source.toList = before ++ (found ++ after) ∧ found ≠ [] ∧
            StopsAt source.toList before (found ++ after) ∧
            e = ⟨.unrecognized (String.ofList found), lineAfter before⟩) ∧
        (∀ lexemes e, lex source = .ok lexemes → failure = .read e →
          ∃ lexeme ∈ lexemes, lexeme.line = e.line) ∧
        ∀ e, failure = .run e → TokenLine (earlier ++ [source]) e.line) ∧
    ∀ (lexemes : List Lexeme) (e : ReadError), Reader.program lexemes = .error e →
      (∃ lexeme ∈ lexemes, lexeme.line = e.line) ∧
        ∀ φ : Nat → Nat,
          Reader.program (lexemes.map (Lexeme.moved φ)) = .error ⟨e.cause, φ e.line⟩ := by
  constructor
  · intro sink earlier source failure hfail
    refine ⟨failure.message_eq, fun e hlex => ?_, ?_, ?_⟩
    · rw [run_of_lex_eq_error hlex] at hfail
      exact ⟨(Except.error.inj hfail).symm, stopsAt_of_lex_eq_error hlex⟩
    · rintro lexemes e hlex rfl
      exact Reader.exists_lexeme_of_program_eq_error (program_of_run_eq_read hlex hfail)
    · rintro e rfl
      have hstart : Machine.Aligned (OnTokenLines (earlier ++ [source]))
          { initial with sink := sink } { initial with sink := sink } :=
        ⟨aligned_initial.scopes, rfl, rfl, rfl⟩
      have hsession := hstart.runAll_tokenLine fun _ => List.mem_append_left [source]
      have hmem : source ∈ earlier ++ [source] := List.mem_concat_self
      exact hsession.tokenLine_of_run_error hmem hfail
  · intro lexemes e h
    exact ⟨Reader.exists_lexeme_of_program_eq_error h, Reader.program_moved_of_error h⟩

/-- A function of one source text that fails on its second line when the next one calls it, and a
declaration on line three that ends after its kind. -/
theorem failure_in_earlier_source :
    let declared := "fn f = () :\nx :"
    (run "f()" (runAll [declared] initial)).1 = .error (.run ⟨.unknownVariable "x", 2⟩) ∧
      TokenLine [declared, "f()"] 2 ∧
      Reader.program [⟨.kind .num, 3⟩] = .error ⟨.endOfInput, 3⟩ ∧
      Reader.program [⟨.kind .num, 8⟩] = .error ⟨.endOfInput, 8⟩ := by
  intro declared
  have hlex : lex "fn f = () :\nx :" = .ok
      [⟨.kind .fn, 1⟩, ⟨.identifier "f", 1⟩, ⟨.mark .equals, 1⟩, ⟨.mark .leftParen, 1⟩,
        ⟨.mark .rightParen, 1⟩, ⟨.mark .colon, 1⟩, ⟨.identifier "x", 2⟩, ⟨.mark .colon, 2⟩] := by
    with_unfolding_all rfl
  have hcall : lex "f()" = .ok [⟨.identifier "f", 1⟩, ⟨.mark .leftParen, 1⟩,
      ⟨.mark .rightParen, 1⟩] := by
    with_unfolding_all rfl
  have hdeclared : readProgram declared =
      .ok [.function "f" [] [.expression (.name "x" 2) 2] 1] := by
    rw [readProgram, hlex]
    cbv
  have hread : readProgram "f()" = .ok [.expression (.call "f" [] 1) 1] := by
    rw [readProgram, hcall]
    cbv
  have hearlier : runAll [declared] initial =
      initial.define ⟨"f", [], [.expression (.name "x" 2) 2], 1⟩ := by
    rw [runAll, List.foldl_cons, List.foldl_nil, run, perform, hdeclared]
    rfl
  have hfail : (run "f()" (runAll [declared] initial)).1 =
      .error (.run ⟨.unknownVariable "x", 2⟩) := by
    rw [hearlier, run, perform, hread]
    with_unfolding_all rfl
  have hkind : Reader.program [⟨.kind .num, 3⟩] = .error ⟨.endOfInput, 3⟩ := by
    cbv
  have hnames := failures_name_source_lines.1 initial.sink [declared] "f()" _ hfail
  have hmoved := (failures_name_source_lines.2 _ _ hkind).2 (· + 5)
  exact ⟨hfail, hnames.2.2.2 _ rfl, hkind, hmoved⟩

end Machine
end ColonScript
