import ColonScript.Proofs.Running.CallLimit

/-!
# The number of active calls

The number of active calls decides one thing only: whether a further call is refused.  A run that
does not fail at the limit comes to the same end when fewer calls are active.  The two runs may nest
calls to different depths, so this is proved of pairs of runs (`Run.Unhindered`).
-/

namespace ColonScript

namespace Machine

/-- The same machine with another number of active calls. -/
def atDepth (d : Nat) (m : Machine) : Machine :=
  { m with depth := d }

variable {d : Nat} {m : Machine}

@[simp]
theorem sink_atDepth :
    (m.atDepth d).sink = m.sink :=
  rfl

@[simp]
theorem valueOf?_atDepth
    (name : String) :
    (m.atDepth d).valueOf? name = m.valueOf? name :=
  rfl

theorem room_eq_zero
    (hm : m.depth = callLimit) :
    m.room = 0 :=
  Nat.sub_eq_zero_of_le (Nat.le_of_eq hm.symm)

theorem room_le_room_atDepth
    (hd : d ≤ m.depth) :
    m.room ≤ (m.atDepth d).room :=
  Nat.sub_le_sub_left hd callLimit

end Machine

namespace Run

variable {α β : Type}

/-- The same end with another number of active calls. -/
def endAt (d : Nat) : EStateM.Result RunError Machine α → EStateM.Result RunError Machine α
  | .ok a m => .ok a (m.atDepth d)
  | .error e m => .error e (m.atDepth d)

/-- Where `x` does not fail at the limit, `y` comes to the same end whatever number of calls is
active. -/
def Unhindered (x y : Run α) : Prop :=
  ∀ m d, (∀ line, ¬x.Fails m ⟨.recursionLimit, line⟩) → y (m.atDepth d) = endAt d (x m)

theorem Unhindered.bind
    {x y : Run α} {f g : α → Run β} (hx : Unhindered x y)
    (hf : ∀ a m m', x m = .ok a m' → Unhindered (f a) (g a)) :
    Unhindered (x >>= f) (y >>= g) := by
  intro m d h
  have hfirst := hx m d fun line hfails => h line (hfails.bind f)
  cases hok : x m with
  | ok a m' =>
      rw [hok] at hfirst
      rw [bind_of_ok hok, bind_of_ok hfirst]
      exact hf a m m' hok m' d fun line hfails => h line (.afterOk hok hfails)
  | error e m' =>
      rw [hok] at hfirst
      rw [bind_of_error hok, bind_of_error hfirst]
      rfl

/-- Changes of the machine that only move the number of active calls can stand around a run. -/
theorem Unhindered.between
    {x y : Run α} (hx : Unhindered x y) {enter leave : Machine → Machine} (shift : Nat → Nat)
    (henter : ∀ m d, enter (m.atDepth d) = (enter m).atDepth (shift d))
    (hleave : ∀ m d, leave (m.atDepth (shift d)) = (leave m).atDepth d) :
    Unhindered (Run.between enter leave x) (Run.between enter leave y) := by
  intro m d h
  have hbody := hx (enter m) (shift d) fun line hfails => h line (fails_between.mpr hfails)
  rw [Run.between, Run.between, henter, hbody]
  cases x (enter m) with
  | ok a m' => exact congrArg (EStateM.Result.ok a) (hleave m' d)
  | error e m' => exact congrArg (EStateM.Result.error e) (hleave m' d)

theorem unhindered_print
    (line : Nat) (text : String) :
    Unhindered (print line text) (print line text) := by
  intro m d _
  rw [print_apply, print_apply, Machine.sink_atDepth]
  split <;> rfl

theorem unhindered_push
    (line : Nat) (arguments : List Argument) :
    Unhindered (Native.push line arguments) (Native.push line arguments) := by
  intro m d _
  match arguments with
  | [] | [_] | _ :: _ :: _ :: _ => rfl
  | [⟨_, none⟩, item] => rfl
  | [⟨v, some name⟩, item] =>
      rw [Native.push_named, Native.push_named, Machine.valueOf?_atDepth]
      split <;> rfl

/-- Steps do not depend on the number of active calls, nor does what is put together from them. -/
theorem compatible_unhindered :
    Compatible Unhindered where
  pure _ _ _ _ := rfl
  fail _ _ _ _ _ := rfl
  bind := Unhindered.bind
  find name _ _ hf m d h := hf (m.scopes.find? name) m d h
  declare _ _ _ _ _ := rfl
  define _ _ _ _ := rfl
  print := unhindered_print
  push := unhindered_push
  iterate _ _ _ _ hx := hx.between id (fun _ _ => rfl) fun _ _ => rfl

/-- A call that is not refused comes to the same end where more calls may nest. -/
theorem unhindered_invoke
    {room room' : Nat} (h : room ≤ room') :
    CallsRelate Unhindered (invoke room) (invoke room') := by
  induction room generalizing room' with
  | zero =>
      -- The first call is refused, which is to fail at the limit.
      intro f arguments line _ m d hlimit
      exact absurd ⟨m, rfl⟩ (hlimit line)
  | succ room ih =>
      obtain ⟨room', rfl⟩ := Nat.exists_eq_succ_of_ne_zero (Nat.ne_zero_of_lt h)
      intro f arguments line _
      have hcalls := ih (Nat.le_of_succ_le_succ h)
      have hbody := (compatible_unhindered.statements hcalls).2.1 f.body none
      rw [invoke_succ, invoke_succ]
      refine compatible_unhindered.andThen ?_ Ending.value
      exact hbody.between (· + 1) (fun _ _ => rfl) fun _ _ => rfl

end Run

namespace Machine

/-- The number of active calls matters only through the limit.  An expression, a statement or a
block that does not fail at the limit comes to the same end when fewer calls are active: it gives
the same value or failure and leaves the same scopes and the same output.  And something that is run
fails at the limit exactly if it comes to a call, on the line that is reported, whose callee is a
user function that takes its arguments, while as many calls as allowed are active. -/
theorem depth_matters_only_at_limit
    {m : Machine} (hm : m.depth ≤ callLimit) :
    (∀ d ≤ m.depth,
      (∀ e, (∀ line, ¬(runExpr e).Fails m ⟨.recursionLimit, line⟩) →
        runExpr e (m.atDepth d) = Run.endAt d (runExpr e m)) ∧
      (∀ s, (∀ line, ¬(runStatement s).Fails m ⟨.recursionLimit, line⟩) →
        runStatement s (m.atDepth d) = Run.endAt d (runStatement s m)) ∧
      ∀ ss, (∀ line, ¬(runBlock ss).Fails m ⟨.recursionLimit, line⟩) →
        runBlock ss (m.atDepth d) = Run.endAt d (runBlock ss m)) ∧
    ∀ t line, t.Fails m.room m ⟨.recursionLimit, line⟩ ↔
      ∃ callee arguments f records n n',
        Reaches m.room t m n.room (.expr (.call callee arguments line)) n ∧
          Accepts n.room callee arguments line n f records n' ∧ n.depth = callLimit := by
  refine ⟨fun d hd => ?_, fun t line => ?_⟩
  · have hcalls := Run.unhindered_invoke (room_le_room_atDepth hd)
    have hexpr := (Run.compatible_unhindered.expressions hcalls).1
    obtain ⟨hstatement, hblock, -⟩ := Run.compatible_unhindered.statements hcalls
    exact ⟨fun e => hexpr e m d, fun s => hstatement s m d, fun ss => hblock ss none m d⟩
  · have hdepth : m.depth + m.room = callLimit := Nat.add_sub_cancel' hm
    rw [fails_iff_meetsLimit]
    constructor
    · rintro ⟨callee, arguments, f, records, n, n', hreaches, haccepts⟩
      have hn : n.depth = callLimit := hreaches.depth_add_room hdepth
      rw [← room_eq_zero hn] at hreaches haccepts
      exact ⟨callee, arguments, f, records, n, n', hreaches, haccepts, hn⟩
    · rintro ⟨callee, arguments, f, records, n, n', hreaches, haccepts, hn⟩
      rw [room_eq_zero hn] at hreaches haccepts
      exact ⟨callee, arguments, f, records, n, n', hreaches, haccepts⟩

/-- Where one more call may be made, a function that calls nothing answers as it does when no call
is active, and a function that calls it is refused this call. -/
theorem last_call_answers_and_next_is_refused :
    let ss : List Statement :=
      [.function "f" [⟨.bool, "b"⟩] [.returns (.name "b" 1) 1] 1,
        .function "g" [] [.returns (.call "f" [.literal (.boolean true) 2] 2) 2] 2]
    let m := ((runBlock ss).after initial).atDepth 4999
    let call := Expr.call "f" [.literal (.boolean true) 3] 3
    runExpr call m = .ok (some (.boolean true)) m ∧
      runExpr call (m.atDepth 0) = .ok (some (.boolean true)) (m.atDepth 0) ∧
      ∃ callee arguments f records n n',
        Reaches m.room (.expr (.call "g" [] 4)) m n.room (.expr (.call callee arguments 2)) n ∧
          Accepts n.room callee arguments 2 n f records n' ∧ n.depth = callLimit := by
  intro ss m call
  have hm : m.depth ≤ callLimit := by decide
  have hcall : runExpr call m = .ok (some (.boolean true)) m := by
    with_unfolding_all rfl
  have hrefused : (Task.expr (.call "g" [] 4)).Fails m.room m ⟨.recursionLimit, 2⟩ := by
    exact ⟨m, by with_unfolding_all rfl⟩
  obtain ⟨hsame, hlimit⟩ := depth_matters_only_at_limit hm
  refine ⟨hcall, ?_, (hlimit _ 2).mp hrefused⟩
  have hquiet : ∀ line, ¬(runExpr call).Fails m ⟨.recursionLimit, line⟩ := by
    rintro line ⟨n, hn⟩
    rw [hcall] at hn
    cases hn
  rw [(hsame 0 (Nat.zero_le _)).1 call hquiet, hcall]
  rfl

end Machine
end ColonScript
