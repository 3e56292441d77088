import ColonScript.Proofs.Running.Changes
import Mathlib.Data.List.Forall2

/-!
# Conditionals

The guards of a chain are tested in order up to the first that holds, and the body of that arm is
all that runs besides them.  A chain therefore does what the two-way choice between its first arm
and the chain of the others does, and neither the arms after the one that is taken nor the bodies
of those before it matter.
-/

namespace ColonScript

namespace Arm

/-- The guard of an arm, if it has one. -/
def condition : Arm → Option Expr
  | mk condition _ _ => condition

/-- The statements of an arm. -/
def body : Arm → List Statement
  | mk _ body _ => body

/-- The line of an arm. -/
def line : Arm → Nat
  | mk _ _ line => line

/-- Two arms have the same guard on the same line.  Their bodies may differ. -/
structure SameTest (a b : Arm) : Prop where
  condition : b.condition = a.condition
  line : b.line = a.line

end Arm

/-- How a chain ends after the body of the arm that was taken: a return goes on, any other value
is dropped. -/
def Ending.ofBody : Ending → Ending
  | returned v => .returned v
  | ran _ => .ran none

/-! ## One arm after another -/

namespace Run

variable {i : Invocation}

/-- The first arm of a chain is tested before any other. -/
theorem arms_cons
    (arm : Arm) (rest : List Arm) :
    arms i (arm :: rest) =
      guard i arm.line arm.condition >>= fun taken =>
        if taken then block i arm.body none >>= fun ending => pure ending.ofBody
        else arms i rest := by
  obtain ⟨condition, body, line⟩ := arm
  rw [arms]
  congr 1
  funext taken
  cases taken with
  | false => rfl
  | true =>
      simp only [if_true]
      congr 1
      funext ending
      cases ending <;> rfl

section
variable {arm : Arm} {m m' : Machine}

theorem arms_of_guard_true
    (h : guard i arm.line arm.condition m = .ok true m') (rest : List Arm) :
    arms i (arm :: rest) m =
      (block i arm.body none >>= fun ending => pure ending.ofBody) m' := by
  rw [arms_cons, bind_of_ok h]
  rfl

theorem arms_of_guard_false
    (h : guard i arm.line arm.condition m = .ok false m') (rest : List Arm) :
    arms i (arm :: rest) m = arms i rest m' := by
  rw [arms_cons, bind_of_ok h]
  rfl

end

/-- A chain gives no value but that of a return. -/
theorem ending_of_arms
    {chain : List Arm} {m n : Machine} {ending : Ending} (h : arms i chain m = .ok ending n) :
    ending = .ran none ∨ ∃ v, ending = .returned v := by
  induction chain generalizing m with
  | nil =>
      rw [arms] at h
      cases h
      exact .inl rfl
  | cons arm rest ih =>
      rw [arms_cons] at h
      obtain ⟨taken, m', -, h⟩ := exists_ok_of_bind_eq_ok h
      cases taken with
      | false => exact ih h
      | true =>
          obtain ⟨last, n', -, h⟩ := exists_ok_of_bind_eq_ok h
          cases h
          cases last with
          | ran v => exact .inl rfl
          | returned v => exact .inr ⟨v, rfl⟩

/-- An arm without guard whose body is a chain does what the chain does. -/
theorem arms_otherwise
    (rest : List Arm) (line line' : Nat) :
    arms i [.mk none [.conditional rest line] line'] = arms i rest := by
  funext m
  have hguard : guard i line' none m = .ok true m := rfl
  rw [arms_of_guard_true hguard, Arm.body, block, statement, bind_assoc]
  cases h : arms i rest m with
  | error e n => exact bind_of_error h _
  | ok ending n =>
      rw [bind_of_ok h]
      -- The arm drops the value of its body, and the chain in the body has none.
      rcases ending_of_arms h with rfl | ⟨v, rfl⟩
      · change (block i [] none >>= fun ending => pure ending.ofBody) n = _
        rw [block]
        rfl
      · rfl

end Run

/-! ## The arm that is taken -/

namespace Machine

/-- Tests the guard of an arm. -/
def runGuard (arm : Arm) : Run Bool := fun m =>
  Run.guard (Run.invoke m.room) arm.line arm.condition m

/-- The guards of all arms are tested, each in what the one before left, and none holds. -/
inductive Passed : List Arm → Machine → Machine → Prop
  | none (m : Machine) : Passed [] m m
  | next {arm : Arm} {rest : List Arm} {m m₁ m₂ : Machine} :
      runGuard arm m = .ok false m₁ → Passed rest m₁ m₂ → Passed (arm :: rest) m m₂

/-- After the arms before it, an arm is the first that is taken: none of their guards holds, and its
own is absent or holds.  Its body starts in `m'`. -/
def Takes (before : List Arm) (arm : Arm) (m m' : Machine) : Prop :=
  ∃ m₁, Passed before m m₁ ∧ runGuard arm m₁ = .ok true m'

section
variable {before : List Arm} {arm : Arm} {m m' : Machine}

theorem room_of_runGuard
    {taken : Bool} (h : runGuard arm m = .ok taken m') :
    m'.room = m.room := by
  have hpermitted := (Run.compatible_permitted m.room).guard (j := Run.invoke m.room)
    (Run.permitted_expr m.room) arm.line arm.condition
  exact Run.Permitted.room_of_ok hpermitted rfl h

theorem Passed.room_eq
    (h : Passed before m m') :
    m'.room = m.room := by
  induction h with
  | none => rfl
  | next hguard _ ih => rw [ih, room_of_runGuard hguard]

/-- Arms that are passed leave the chain to the others. -/
theorem Passed.arms_append
    (h : Passed before m m') (rest : List Arm) :
    Run.arms (Run.invoke m.room) (before ++ rest) m = Run.arms (Run.invoke m.room) rest m' := by
  induction h with
  | none => rfl
  | next hguard _ ih =>
      rw [room_of_runGuard hguard] at ih
      rw [List.cons_append, Run.arms_of_guard_false hguard, ih]

/-- Bodies do not matter for which arms are passed. -/
theorem Passed.of_sameTest
    (h : Passed before m m') {before' : List Arm}
    (hsame : List.Forall₂ Arm.SameTest before before') :
    Passed before' m m' := by
  induction h generalizing before' with
  | none =>
      cases hsame
      exact .none _
  | next hguard _ ih =>
      cases hsame with
      | cons hfirst hothers =>
          rw [runGuard, ← hfirst.condition, ← hfirst.line] at hguard
          exact .next hguard (ih hothers)

theorem Takes.of_sameTest
    (h : Takes before arm m m') {before' : List Arm}
    (hsame : List.Forall₂ Arm.SameTest before before') :
    Takes before' arm m m' := by
  obtain ⟨m₁, hpassed, hguard⟩ := h
  exact ⟨m₁, hpassed.of_sameTest hsame, hguard⟩

/-- A chain ends as the body of the arm that is taken, a value aside. -/
theorem Takes.runStatement_eq
    (h : Takes before arm m m') (after : List Arm) (line : Nat) :
    runStatement (.conditional (before ++ arm :: after) line) m =
      (runBlock arm.body >>= fun ending => pure ending.ofBody) m' := by
  obtain ⟨m₁, hpassed, hguard⟩ := h
  have hroom : m'.room = m.room := by
    rw [room_of_runGuard hguard, hpassed.room_eq]
  rw [runGuard, hpassed.room_eq] at hguard
  rw [runStatement, Run.statement, hpassed.arms_append, Run.arms_of_guard_true hguard, ← hroom]
  rfl

/-- A chain that returns has taken an arm whose body returns. -/
theorem exists_takes_of_returned
    {chain : List Arm} {n : Machine} {v : Option Value}
    (h : Run.arms (Run.invoke m.room) chain m = .ok (.returned v) n) :
    ∃ before arm after m', chain = before ++ arm :: after ∧ Takes before arm m m' ∧
      runBlock arm.body m' = .ok (.returned v) n := by
  induction chain generalizing m with
  | nil =>
      rw [Run.arms] at h
      cases h
  | cons first rest ih =>
      rw [Run.arms_cons] at h
      obtain ⟨taken, m₁, hguard, h⟩ := Run.exists_ok_of_bind_eq_ok h
      have hroom : m₁.room = m.room := room_of_runGuard hguard
      rw [← hroom] at h
      cases taken with
      | false =>
          obtain ⟨before, arm, after, m', rfl, ⟨m₂, hpassed, htrue⟩, hbody⟩ := ih h
          exact ⟨first :: before, arm, after, m', rfl, ⟨m₂, .next hguard hpassed, htrue⟩, hbody⟩
      | true =>
          obtain ⟨ending, n', hbody, h⟩ := Run.exists_ok_of_bind_eq_ok h
          cases ending with
          | ran w => cases h
          | returned w =>
              cases h
              exact ⟨[], first, rest, m₁, rfl, ⟨m, .none m, hguard⟩, hbody⟩

end

/-- A chain means nested two-way choices, and only what is tested and taken matters.  First, a chain
does what its first arm does with the chain of the others as the body of an arm without guard.
Second, once an arm is the first that is taken, the arms after it and the bodies of those before it
can be replaced without a change of the ending, the failure, the output or anything else in the
machine.  Third, a chain ends in a return exactly if the body of the arm that it takes ends in that
return, and otherwise without a value. -/
theorem chain_means_nested_choice
    (m : Machine) :
    (∀ arm rest line line₁ line₂ line₃,
      runStatement (.conditional (arm :: rest) line) m =
        runStatement (.conditional [arm, .mk none [.conditional rest line₁] line₂] line₃) m) ∧
    (∀ before arm m', Takes before arm m m' →
      ∀ before' after after' line line', List.Forall₂ Arm.SameTest before before' →
        runStatement (.conditional (before ++ arm :: after) line) m =
          runStatement (.conditional (before' ++ arm :: after') line') m) ∧
    ∀ chain line,
      (∀ v n, runStatement (.conditional chain line) m = .ok (.returned v) n ↔
        ∃ before arm after m', chain = before ++ arm :: after ∧ Takes before arm m m' ∧
          runBlock arm.body m' = .ok (.returned v) n) ∧
      ∀ ending n, runStatement (.conditional chain line) m = .ok ending n →
        (∀ v, ending ≠ .returned v) → ending = .ran none := by
  refine ⟨fun arm rest line line₁ line₂ line₃ => ?_, ?_, fun chain line => ⟨fun v n => ?_, ?_⟩⟩
  · rw [runStatement, runStatement, Run.statement, Run.statement, Run.arms_cons, Run.arms_cons,
      Run.arms_otherwise]
  · intro before arm m' htakes before' after after' line line' hsame
    rw [htakes.runStatement_eq, (htakes.of_sameTest hsame).runStatement_eq]
  · constructor
    · intro h
      rw [runStatement, Run.statement] at h
      exact exists_takes_of_returned h
    · rintro ⟨before, arm, after, m', rfl, htakes, hbody⟩
      rw [htakes.runStatement_eq, Run.bind_of_ok hbody]
      rfl
  · intro ending n h hreturn
    rw [runStatement, Run.statement] at h
    rcases Run.ending_of_arms h with hran | ⟨v, hv⟩
    · exact hran
    · exact absurd hv (hreturn v)

/-- A guard prints and does not hold, and the arm after it returns: the output is made once, and
neither the first body nor the last arm matters. -/
theorem printing_guard_is_passed :
    let m := (runBlock
      [.function "f" []
        [.expression (.call "shon" [.literal (.text "tested") 1] 1) 1,
          .returns (.literal (.boolean false) 1) 1] 1]).after initial
    let first : Arm := .mk (some (.call "f" [] 2)) [.returns (.literal (.text "a") 2) 2] 2
    let arm : Arm := .mk (some (.literal (.boolean true) 3)) [.returns (.literal (.text "b") 3) 3] 3
    let last : Arm := .mk none [.returns (.literal (.text "c") 4) 4] 4
    Takes [first] arm m (m.emit "tested") ∧
      runStatement (.conditional [first, arm, last] 2) m =
        runStatement (.conditional [.mk (some (.call "f" [] 2)) [] 2, arm] 2) m ∧
      runStatement (.conditional [first, arm, last] 2) m =
        .ok (.returned (some (.text "b"))) (m.emit "tested") := by
  intro m first arm last
  have htakes : Takes [first] arm m (m.emit "tested") := by
    refine ⟨m.emit "tested", .next ?_ (.none _), rfl⟩
    with_unfolding_all rfl
  obtain ⟨-, hreplaced, hending⟩ := chain_means_nested_choice m
  have hbody : runBlock arm.body (m.emit "tested") =
      .ok (.returned (some (.text "b"))) (m.emit "tested") := by
    with_unfolding_all rfl
  refine ⟨htakes, ?_, ?_⟩
  · exact hreplaced [first] arm _ htakes [.mk (some (.call "f" [] 2)) [] 2] [last] [] 2 2
      (.cons ⟨rfl, rfl⟩ .nil)
  · exact ((hending [first, arm, last] 2).1 _ _).mpr
      ⟨[first], arm, [last], _, rfl, htakes, hbody⟩

end Machine
end ColonScript
