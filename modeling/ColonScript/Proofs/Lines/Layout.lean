import ColonScript.Proofs.Lines.Reading
import ColonScript.Proofs.Lines.Running
import ColonScript.Session

/-!
# Layout carries no meaning

Where the lines of a source text end decides only which lines its tokens are tagged with.  Since
neither reading nor running looks at lines, two texts with the same tokens come to the same end in
aligned machines.
-/

namespace ColonScript

/-- Two failures at the same stage for the same cause. -/
inductive Failure.Aligned (L : Nat → Nat → Prop) : Failure → Failure → Prop
  | read {e e' : ReadError} : e.Aligned L e' → Aligned L (.read e) (.read e')
  | run {e e' : RunError} : e.Aligned L e' → Aligned L (.run e) (.run e')

namespace Machine

variable {L : Nat → Nat → Prop} {α β : Type}

/-- Two ends of source texts: both failed for the same cause, or both gave something and this
relates; the machines that are left are aligned. -/
structure SameEnd (L : Nat → Nat → Prop) (R : α → β → Prop)
    (x : Except Failure α × Machine) (y : Except Failure β × Machine) : Prop where
  outcome : OutcomesRelate (Failure.Aligned L) R x.1 y.1
  machine : x.2.Aligned L y.2

theorem SameEnd.attempt
    {γ δ : Type} {P : γ → δ → Prop} {R : α → β → Prop} {x : Except ReadError γ}
    {y : Except ReadError δ} {f : γ → Run α} {g : δ → Run β} {m m' : Machine}
    (hread : OutcomesRelate (ReadError.Aligned L) P x y)
    (hrun : ∀ c d, P c d → Run.Aligned L R (f c) (g d)) (hm : m.Aligned L m') :
    SameEnd L R (attempt x f m) (attempt y g m') := by
  cases hread with
  | error he => exact ⟨.error (.read he), hm⟩
  | ok hP =>
      have hresult := hrun _ _ hP m m' hm
      rw [Machine.attempt, Machine.attempt]
      generalize f _ m = r at hresult
      generalize g _ m' = r' at hresult
      cases hresult with
      | ok hR hm₁ => exact ⟨.ok hR, hm₁⟩
      | error he hm₁ => exact ⟨.error (.run he), hm₁⟩

theorem Aligned.room_eq
    {m m' : Machine} (h : m.Aligned L m') :
    m.room = m'.room := by
  rw [room, room, h.depth]

theorem aligned_runBlock
    {ss ss' : List Statement} (h : List.Forall₂ (Statement.Aligned L) ss ss') :
    Run.Aligned L (Ending.Aligned L) (runBlock ss) (runBlock ss') := by
  intro m m' hm
  rw [runBlock, runBlock, hm.room_eq]
  exact Run.aligned_block (Run.aligned_invoke m'.room) h .none m m' hm

/-- Source texts that are cut into aligned lexemes come to the same end in aligned machines. -/
theorem Aligned.perform
    {m m' : Machine} (h : m.Aligned L m') {source other : String}
    (hlex : OutcomesRelate (ReadError.Aligned L) (List.Forall₂ (Lexeme.Aligned L)) (lex source)
      (lex other)) :
    SameEnd L (Ending.Aligned L) (m.perform source) (m'.perform other) := by
  have hread : OutcomesRelate (ReadError.Aligned L) (List.Forall₂ (Statement.Aligned L))
      (readProgram source) (readProgram other) :=
    hlex.bind Reader.statements_steady.2.2.2
  exact .attempt hread (fun _ _ hss => aligned_runBlock hss) h

theorem SameEnd.map
    {γ δ : Type} {R : α → β → Prop} {S : γ → δ → Prop} {x : Except Failure α × Machine}
    {y : Except Failure β × Machine} {f : α → γ} {g : β → δ} (h : SameEnd L R x y)
    (hf : ∀ a b, R a b → S (f a) (g b)) :
    SameEnd L S (x.1.map f, x.2) (y.1.map g, y.2) :=
  ⟨h.outcome.map hf, h.machine⟩

theorem aligned_provided
    {natives : List NativeFunction} (hnatives : ∀ native ∈ natives, native.routine ≠ .say)
    {m m' : Machine} (h : m.Aligned L m') :
    (natives.foldl (fun m native => m.provide native) m).Aligned L
      (natives.foldl (fun m native => m.provide native) m') := by
  induction natives generalizing m m' with
  | nil => exact h
  | cons native natives ih =>
      have hne := hnatives native List.mem_cons_self
      have hrest := fun other hmem => hnatives other (List.mem_cons_of_mem native hmem)
      exact ih hrest (h.provide fun hsay => (hne hsay).elim)

/-- The natives that every program can use do not tell lines apart. -/
theorem aligned_initial : Machine.initial.Aligned L Machine.initial := by
  have hscopes : Scopes.initial.Aligned L Scopes.initial := by
    refine ⟨fun place => ?_, rfl⟩
    cases place with
    | zero => exact .some ⟨rfl, rfl, rfl, fun _ => .none⟩
    | succ place => exact .none
  exact aligned_provided (by decide) ⟨hscopes, rfl, rfl, rfl⟩

/-- Layout carries no meaning.  Two source texts with the same tokens, each run in a machine in
which sessions start, are both rejected for the same cause, or both fail for the same cause while
running, or both end with values that are the same up to the lines of functions.  In each case
they print the same and leave stores that are the same up to the lines of functions. -/
theorem layout_carries_no_meaning
    {source other : String} {lexemes others : List Lexeme} (hlex : lex source = .ok lexemes)
    (hother : lex other = .ok others)
    (htokens : lexemes.map Lexeme.token = others.map Lexeme.token) (sink : Sink) :
    SameEnd AnyLine (Option.Rel (Value.Aligned AnyLine))
      (run source { initial with sink := sink }) (run other { initial with sink := sink }) := by
  have hstart : Machine.Aligned AnyLine { initial with sink := sink }
      { initial with sink := sink } :=
    ⟨aligned_initial.scopes, rfl, rfl, rfl⟩
  have hlexemes : OutcomesRelate (ReadError.Aligned AnyLine)
      (List.Forall₂ (Lexeme.Aligned AnyLine)) (lex source) (lex other) := by
    rw [hlex, hother]
    exact .ok (aligned_of_tokens_eq htokens)
  exact (hstart.perform hlexemes).map fun _ _ hending => hending.value

/-- A function and its name, on one line and on three: the values are the function with the lines
of either text. -/
theorem function_on_three_lines :
    let onOne : List Lexeme :=
      [⟨.kind .fn, 1⟩, ⟨.identifier "f", 1⟩, ⟨.mark .equals, 1⟩, ⟨.mark .leftParen, 1⟩,
        ⟨.mark .rightParen, 1⟩, ⟨.mark .colon, 1⟩, ⟨.mark .colon, 1⟩, ⟨.identifier "f", 1⟩]
    let onThree : List Lexeme :=
      [⟨.kind .fn, 1⟩, ⟨.identifier "f", 1⟩, ⟨.mark .equals, 1⟩, ⟨.mark .leftParen, 2⟩,
        ⟨.mark .rightParen, 2⟩, ⟨.mark .colon, 2⟩, ⟨.mark .colon, 2⟩, ⟨.identifier "f", 3⟩]
    lex "fn f = () : : f" = .ok onOne ∧ lex "fn f =\n() : : // empty\nf" = .ok onThree ∧
      SameEnd AnyLine (Option.Rel (Value.Aligned AnyLine)) (initial.run "fn f = () : : f")
        (initial.run "fn f =\n() : : // empty\nf") := by
  intro onOne onThree
  have hone : lex "fn f = () : : f" = .ok onOne := by
    with_unfolding_all rfl
  have hthree : lex "fn f =\n() : : // empty\nf" = .ok onThree := by
    with_unfolding_all rfl
  exact ⟨hone, hthree, layout_carries_no_meaning hone hthree rfl initial.sink⟩

end Machine
end ColonScript
