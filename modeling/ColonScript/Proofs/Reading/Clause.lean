import ColonScript.Proofs.Reading.Phrase
import ColonScript.Syntax.Statement

/-!
# What the statement readers accept

`Forms clause taken rest` says by rules which lexemes are a statement, the later arms of a
conditional, a wrapped body or a whole program, given what comes after them.  The rule of bodies
asks for the two wrappers around a program and for nothing else: no rule counts wrappers, so a
derivation says how bodies nest and not how a reader finds their ends.
-/

namespace ColonScript
namespace Reader

/-- One or more parameters, with the commas between them and the parenthesis that ends them. -/
inductive Listed : List Parameter → (taken : List Lexeme) → Prop where
  | last {kind : Kind} {name : String} {l₁ l₂ l₃ : Nat} :
      Listed [⟨kind, name⟩] [⟨.kind kind, l₁⟩, ⟨.identifier name, l₂⟩, ⟨.mark .rightParen, l₃⟩]
  | more {kind : Kind} {name : String} {l₁ l₂ l₃ : Nat} {ps : List Parameter}
      {a : List Lexeme} :
      Listed ps a →
      Listed (⟨kind, name⟩ :: ps)
        (⟨.kind kind, l₁⟩ :: ⟨.identifier name, l₂⟩ :: ⟨.mark .comma, l₃⟩ :: a)

/-- A parenthesised list of parameters. -/
inductive Signature : List Parameter → (taken : List Lexeme) → Prop where
  | empty {opened closed : Nat} :
      Signature [] [⟨.mark .leftParen, opened⟩, ⟨.mark .rightParen, closed⟩]
  | listed {opened : Nat} {ps : List Parameter} {a : List Lexeme} :
      Listed ps a → Signature ps (⟨.mark .leftParen, opened⟩ :: a)

/-- What a statement reader is after, together with what it gives. -/
inductive Clause where
  | statement (s : Statement)
  | arms (as : List Arm)
  | body (ss : List Statement)
  | program (ss : List Statement)

/-- The rules of statements: `taken` is read as the clause when `rest` comes after it. -/
inductive Forms : Clause → (taken rest : List Lexeme) → Prop where
  | function {name : String} {ps : List Parameter} {ss : List Statement} {line l₁ l₂ : Nat}
      {a b rest : List Lexeme} :
      Signature ps a → Forms (.body ss) b rest →
      Forms (.statement (.function name ps ss line))
        (⟨.kind .fn, line⟩ :: ⟨.identifier name, l₁⟩ :: ⟨.mark .equals, l₂⟩ :: (a ++ b)) rest
  | declare {kind : Kind} {name : String} {e : Expr} {line l₁ l₂ : Nat}
      {a rest : List Lexeme} :
      kind ≠ .fn → Reads (.comparison e) a rest →
      Forms (.statement (.declare kind name e line))
        (⟨.kind kind, line⟩ :: ⟨.identifier name, l₁⟩ :: ⟨.mark .equals, l₂⟩ :: a) rest
  | conditional {guard : Expr} {ss : List Statement} {as : List Arm} {line : Nat}
      {a b c rest : List Lexeme} :
      Reads (.comparison guard) a (b ++ (c ++ rest)) → Forms (.body ss) b (c ++ rest) →
      Forms (.arms as) c rest →
      Forms (.statement (.conditional (.mk (some guard) ss line :: as) line))
        (⟨.keyword .lada, line⟩ :: (a ++ (b ++ c))) rest
  | loop {counter : String} {first last : Expr} {ss : List Statement} {line l₁ l₂ l₃ : Nat}
      {a b c rest : List Lexeme} :
      Reads (.comparison first) a (⟨.keyword .haduh, l₁⟩ ::
        (b ++ ⟨.keyword .da, l₂⟩ :: ⟨.identifier counter, l₃⟩ :: (c ++ rest))) →
      Reads (.comparison last) b
        (⟨.keyword .da, l₂⟩ :: ⟨.identifier counter, l₃⟩ :: (c ++ rest)) →
      Forms (.body ss) c rest →
      Forms (.statement (.loop counter first last ss line))
        (⟨.keyword .naduh, line⟩ :: (a ++ ⟨.keyword .haduh, l₁⟩ ::
          (b ++ ⟨.keyword .da, l₂⟩ :: ⟨.identifier counter, l₃⟩ :: c))) rest
  | returns {e : Expr} {line : Nat} {a rest : List Lexeme} :
      Reads (.comparison e) a rest →
      Forms (.statement (.returns e line)) (⟨.mark .arrow, line⟩ :: a) rest
  | expression {e : Expr} {token : Token} {line : Nat} {a rest : List Lexeme} :
      Reads (.comparison e) (⟨token, line⟩ :: a) rest →
      Forms (.statement (.expression e line)) (⟨token, line⟩ :: a) rest
  | noArms {rest : List Lexeme} :
      next? rest ≠ some (.keyword .badlada) → next? rest ≠ some (.keyword .hynrei) →
      Forms (.arms []) [] rest
  | guarded {guard : Expr} {ss : List Statement} {as : List Arm} {line : Nat}
      {a b c rest : List Lexeme} :
      Reads (.comparison guard) a (b ++ (c ++ rest)) → Forms (.body ss) b (c ++ rest) →
      Forms (.arms as) c rest →
      Forms (.arms (.mk (some guard) ss line :: as))
        (⟨.keyword .badlada, line⟩ :: (a ++ (b ++ c))) rest
  | final {ss : List Statement} {line : Nat} {a rest : List Lexeme} :
      Forms (.body ss) a rest →
      Forms (.arms [.mk none ss line]) (⟨.keyword .hynrei, line⟩ :: a) rest
  | wrapped {ss : List Statement} {opened closed : Nat} {a rest : List Lexeme} :
      Forms (.program ss) a (⟨.mark .colon, closed⟩ :: rest) →
      Forms (.body ss) (⟨.mark .colon, opened⟩ :: (a ++ [⟨.mark .colon, closed⟩])) rest
  | done {rest : List Lexeme} : Forms (.program []) [] rest
  | cons {s : Statement} {ss : List Statement} {a b rest : List Lexeme} :
      Forms (.statement s) a (b ++ rest) → Forms (.program ss) b rest →
      Forms (.program (s :: ss)) (a ++ b) rest

/-- Statements depend on what comes after only through where they end. -/
theorem Forms.endsAlike
    {clause : Clause} {taken rest other : List Lexeme} (h : Forms clause taken rest)
    (halike : EndsAlike rest other) :
    Forms clause taken other := by
  induction h generalizing other with
  | function hsig _ ih => exact .function hsig (ih halike)
  | declare hkind hvalue => exact .declare hkind (hvalue.endsAlike halike)
  | conditional hguard _ _ ihb iha =>
      exact .conditional (hguard.endsAlike ((halike.append _).append _))
        (ihb (halike.append _)) (iha halike)
  | loop hfirst hlast _ ih =>
      exact .loop (hfirst.endsAlike (.cons _)) (hlast.endsAlike (.cons _)) (ih halike)
  | returns hvalue => exact .returns (hvalue.endsAlike halike)
  | expression hvalue => exact .expression (hvalue.endsAlike halike)
  | noArms hbadlada hhynrei =>
      exact .noArms (halike.next?_ne (by simp [extending]) hbadlada)
        (halike.next?_ne (by simp [extending]) hhynrei)
  | guarded hguard _ _ ihb iha =>
      exact .guarded (hguard.endsAlike ((halike.append _).append _))
        (ihb (halike.append _)) (iha halike)
  | final _ ih => exact .final (ih halike)
  | wrapped _ ih => exact .wrapped (ih (.cons _))
  | done => exact .done
  | cons _ _ ihs ihp => exact .cons (ihs (halike.append _)) (ihp halike)

/-- No statement starts with a wrapper. -/
theorem Forms.exists_cons_of_statement
    {s : Statement} {taken rest : List Lexeme} (h : Forms (.statement s) taken rest) :
    ∃ token line after, taken = ⟨token, line⟩ :: after ∧ token ≠ .mark .colon := by
  cases h with
  | function _ _ | declare _ _ | conditional _ _ _ | loop _ _ _ | returns _ =>
      exact ⟨_, _, _, rfl, by simp⟩
  | expression hvalue =>
      obtain ⟨token, line, after, hcons, hstart⟩ := hvalue.exists_starting rfl
      refine ⟨token, line, after, hcons, ?_⟩
      rintro rfl
      cases hstart

end Reader
end ColonScript
