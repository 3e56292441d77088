import ColonScript.Proofs.Running.StackNeutral

/-!
# Failures are not swallowed

Nothing in a program can catch a failure.  This shows when the sink is closed: the first attempt to
print fails, and the failure passes through all calls, arguments, bounds, guards and iterations
around it to the end of the run.  `Run.PrintsIn` says in which machines a run prints, by how the run
is put together from steps.  Up to the first of these machines a run with a closed sink does what it
does with an open one, and there it stops.
-/

namespace ColonScript

open Scopes

namespace Run

variable {α β : Type}

/-- The machines in which a run prints that goes on with another one after it succeeded. -/
def printsThen (x : Run α) (p : Machine → List Machine) (q : α → Machine → List Machine)
    (m : Machine) : List Machine :=
  match x m with
  | .ok a m' => p m ++ q a m'
  | .error _ _ => p m

/-- A run that starts in `m` prints in the machines `prints m`, oldest first.  The rules follow how
runs are put together; a line that a closed sink refuses is not printed. -/
inductive PrintsIn : {α : Type} → Run α → (prints : Machine → List Machine) → Prop
  | pure {α : Type} (a : α) : PrintsIn (pure a) fun _ => []
  | fail {α : Type} (line : Nat) (cause : RunCause) :
      PrintsIn (Run.fail line cause : Run α) fun _ => []
  | declare (r : Record) : PrintsIn (modify (Machine.mapScopes (·.declare r))) fun _ => []
  | define (f : UserFunction) : PrintsIn (modify (Machine.define f)) fun _ => []
  | push (line : Nat) (arguments : List Argument) :
      PrintsIn (Native.push line arguments) fun _ => []
  | print (line : Nat) (text : String) :
      PrintsIn (Run.print line text) fun m => if m.sink.isOpen then [m] else []
  | find {α : Type} (name : String) {f : Option Record → Run α}
      {q : Option Record → Machine → List Machine} : (∀ r, PrintsIn (f r) (q r)) →
      PrintsIn (get >>= fun m => f (m.scopes.find? name)) fun m => q (m.scopes.find? name) m
  | bind {α β : Type} {x : Run α} {f : α → Run β} {p : Machine → List Machine}
      {q : α → Machine → List Machine} : PrintsIn x p →
      (∀ a m m', x m = .ok a m' → PrintsIn (f a) (q a)) → PrintsIn (x >>= f) (printsThen x p q)
  | iterate {α : Type} (counter : Record) {x : Run α} {p : Machine → List Machine} :
      PrintsIn x p → PrintsIn (between (.enterIteration counter) .leaveIteration x) fun m =>
        p (m.enterIteration counter)
  | call {α : Type} (arguments : List Record) {x : Run α} {p : Machine → List Machine} :
      PrintsIn x p → PrintsIn (between (.enterCall arguments) .leaveCall x) fun m =>
        p (m.enterCall arguments)

/-! ## Every run is put together in this way -/

/-- Steps print in certain machines, and so does what is put together from them. -/
theorem compatible_printsIn : Compatible fun x _ => ∃ prints, PrintsIn x prints where
  pure a := ⟨_, .pure a⟩
  fail line cause := ⟨_, .fail line cause⟩
  bind := by
    rintro α β x - f - ⟨p, hp⟩ hf
    -- What follows is known for values that the first run can give; no others are reached.
    have hq : ∀ a, ∃ q, ∀ m m', x m = .ok a m' → PrintsIn (f a) q := by
      intro a
      by_cases hgives : ∃ m m', x m = .ok a m'
      · obtain ⟨m, m', hx⟩ := hgives
        obtain ⟨q, hq⟩ := hf a m m' hx
        exact ⟨q, fun _ _ _ => hq⟩
      · exact ⟨fun _ => [], fun m m' hx => absurd ⟨m, m', hx⟩ hgives⟩
    choose q hq using hq
    exact ⟨_, .bind hp hq⟩
  find name f _ hf := by
    choose q hq using hf
    exact ⟨_, .find name hq⟩
  declare r _ := ⟨_, .declare r⟩
  define f := ⟨_, .define f⟩
  print line text := ⟨_, .print line text⟩
  push line arguments := ⟨_, .push line arguments⟩
  iterate counter n x _ := fun ⟨p, hp⟩ => ⟨_, .iterate ⟨.num, counter, .number n⟩ hp⟩

theorem printsIn_invoke
    (room : Nat) :
    CallsRelate (fun x _ => ∃ prints, PrintsIn x prints) (invoke room) (invoke room) := by
  induction room with
  | zero => exact fun _ _ line _ => ⟨_, .fail line _⟩
  | succ room ih =>
      intro f arguments line _
      obtain ⟨p, hp⟩ := (compatible_printsIn.statements ih).2.1 f.body none
      rw [invoke_succ]
      exact ⟨_, .bind (.call arguments hp) fun ending _ _ _ => .pure ending.value⟩

theorem printsIn_block
    (room : Nat) (ss : List Statement) (last : Option Value) :
    ∃ prints, PrintsIn (block (invoke room) ss last) prints :=
  (compatible_printsIn.statements (printsIn_invoke room)).2.1 ss last

end Run

/-! ## With a closed sink -/

namespace Machine

/-- Scopes can be entered and left whatever the sink is, and the global scope stays. -/
structure Nests (enter leave : Machine → Machine) : Prop where
  enter_closeSink : ∀ m, enter m.closeSink = (enter m).closeSink
  leave_closeSink : ∀ m, leave m.closeSink = (leave m).closeSink
  sink_enter : ∀ m, (enter m).sink = m.sink
  sink_leave : ∀ m, (leave m).sink = m.sink
  size_enter : ∀ m, (enter m).scopes.row.size = m.scopes.row.size + 1
  scopes_leave : ∀ m, (leave m).scopes = m.scopes.pop

theorem Nests.size_pos
    {enter leave : Machine → Machine} (h : Nests enter leave) (m : Machine) :
    0 < (enter m).scopes.row.size := by
  rw [h.size_enter]
  exact Nat.succ_pos _

theorem nests_iteration
    (counter : Record) :
    Nests (enterIteration counter) leaveIteration where
  enter_closeSink _ := rfl
  leave_closeSink _ := rfl
  sink_enter _ := rfl
  sink_leave _ := rfl
  size_enter _ := (size_modifyAt _ _ _).trans (size_push _ _)
  scopes_leave _ := rfl

theorem nests_call
    (arguments : List Record) :
    Nests (enterCall arguments) leaveCall where
  enter_closeSink _ := rfl
  leave_closeSink _ := rfl
  sink_enter _ := rfl
  sink_leave _ := rfl
  size_enter _ := (size_eq_of_shape_eq (shape_foldl_bindHere _ arguments)).trans (size_push _ _)
  scopes_leave _ := rfl

/-- A machine that is left when a run that started in `m` stopped at `first` since the sink was
closed: nothing was delivered, the scopes that were added have left, and the global scope is that of
`first`. -/
structure StoppedAt (m first m' : Machine) : Prop where
  sink : m'.sink = m.closeSink.sink
  size : m'.scopes.row.size = m.scopes.row.size
  global : m'.scopes.row[top]? = first.scopes.row[top]?

end Machine

namespace Scopes

/-- Of several scopes the first stays when the last leaves. -/
theorem pop_of_one_lt
    {s : Scopes} (h : 1 < s.row.size) :
    s.pop.row.size = s.row.size - 1 ∧ s.pop.row[top]? = s.row[top]? := by
  obtain ⟨row, current⟩ := s
  obtain ⟨below, scope, rfl⟩ := Array.exists_push_of_size_pos (Nat.zero_lt_of_lt h)
  have hbelow : top < below.size := by
    rw [Array.size_push] at h
    exact Nat.lt_of_succ_lt_succ h
  have hpop : pop ⟨below.push scope, current⟩ = ⟨below, scope.resume⟩ := by
    rw [pop, if_neg (Nat.not_le.mpr h)]
    simp
  rw [hpop]
  refine ⟨?_, ?_⟩
  · rw [Array.size_push, Nat.add_sub_cancel]
  · rw [Array.getElem?_push, if_neg (Nat.ne_of_lt hbelow)]

end Scopes

namespace Run

variable {α β : Type}

/-- The same end with the sink closed. -/
def shut : EStateM.Result RunError Machine α → EStateM.Result RunError Machine α
  | .ok a m => .ok a m.closeSink
  | .error e m => .error e m.closeSink

/-- A run in `m` with an open sink that prints in the machines `prints`, compared with one with a
closed sink: they come to the same end if there is nothing to print, and otherwise the second stops
at the first of these machines. -/
structure FailsFast (act : Run α) (m : Machine) (prints : List Machine) : Prop where
  size : (act.after m).scopes.row.size = m.scopes.row.size
  isOpen : (act.after m).sink.isOpen = true
  lines : ∃ lines : Array String, (act.after m).sink.lines = m.sink.lines ++ lines ∧
    lines.size = prints.length
  quiet : prints = [] → act m.closeSink = shut (act m)
  stops : ∀ first rest, prints = first :: rest → first.sink = m.sink ∧
    ∃ line m', act m.closeSink = .error ⟨.closedOutput, line⟩ m' ∧ m.StoppedAt first m'

variable {m : Machine}

/-- Nothing is delivered in machines that a run does not print in. -/
theorem FailsFast.sink_eq
    {act : Run α} (h : FailsFast act m []) (hopen : m.sink.isOpen = true) :
    (act.after m).sink = m.sink := by
  obtain ⟨lines, hlines, hsize⟩ := h.lines
  obtain rfl := Array.eq_empty_of_size_eq_zero hsize
  rw [Array.append_empty] at hlines
  have hsinks : ∀ s t : Sink, s.isOpen = t.isOpen → s.lines = t.lines → s = t := by
    rintro ⟨_, _⟩ ⟨_, _⟩ rfl rfl
    rfl
  exact hsinks _ _ (h.isOpen.trans hopen.symm) hlines

/-- Only the ends of the two runs matter. -/
theorem FailsFast.congr
    {x y : Run α} {prints : List Machine} (h : FailsFast x m prints) (hopened : x m = y m)
    (hclosed : x m.closeSink = y m.closeSink) :
    FailsFast y m prints := by
  have hafter : x.after m = y.after m := by
    rw [after, after, hopened]
  obtain ⟨hsize, hopen, hlines, hquiet, hstops⟩ := h
  rw [hafter] at hsize hopen hlines
  rw [hopened, hclosed] at hquiet
  rw [hclosed] at hstops
  exact ⟨hsize, hopen, hlines, hquiet, hstops⟩

/-- A run that does not depend on the sink and leaves it alone. -/
theorem FailsFast.of_silent
    {act : Run α} (hopen : m.sink.isOpen = true) (hsink : (act.after m).sink = m.sink)
    (hsize : (act.after m).scopes.row.size = m.scopes.row.size)
    (hshut : act m.closeSink = shut (act m)) :
    FailsFast act m [] where
  size := hsize
  isOpen := by rw [hsink, hopen]
  lines := ⟨#[], by rw [hsink, Array.append_empty], rfl⟩
  quiet _ := hshut
  stops _ _ h := by cases h

/-- Printing prints in the machine it starts in, and fails there if the sink is closed. -/
theorem failsFast_print
    (line : Nat) (text : String) (hopen : m.sink.isOpen = true) :
    FailsFast (print line text) m [m] := by
  have hafter : (print line text).after m = m.emit text := by
    rw [after, print_apply, if_pos hopen]
  have hclosed : print line text m.closeSink = .error ⟨.closedOutput, line⟩ m.closeSink := by
    rw [print_apply]
    rfl
  refine ⟨?_, ?_, ?_, fun hnone => ?_, fun first rest hprints => ?_⟩
  · rw [hafter]
    rfl
  · rw [hafter]
    exact hopen
  · rw [hafter]
    exact ⟨#[text], rfl, rfl⟩
  · cases hnone
  · cases hprints
    exact ⟨rfl, line, m.closeSink, hclosed, rfl, rfl, rfl⟩

theorem failsFast_push
    (line : Nat) (arguments : List Argument) (hopen : m.sink.isOpen = true) :
    FailsFast (Native.push line arguments) m [] := by
  have hfails (e : RunError) (h : Native.push line arguments m = .error e m)
      (h' : Native.push line arguments m.closeSink = .error e m.closeSink) :
      FailsFast (Native.push line arguments) m [] := by
    refine .of_silent hopen ?_ ?_ ?_
    · rw [after_of_error h]
    · rw [after_of_error h]
    · rw [h, h']
      rfl
  match arguments with
  | [] | [_] | _ :: _ :: _ :: _ => exact hfails _ rfl rfl
  | [⟨_, none⟩, item] => exact hfails _ rfl rfl
  | [⟨v, some name⟩, item] =>
      have hopened := Native.push_named line v name item m
      have hclosed := Native.push_named line v name item m.closeSink
      rw [show m.closeSink.valueOf? name = m.valueOf? name from rfl] at hclosed
      generalize m.valueOf? name = found at hopened hclosed
      match found with
      | some (.array elements) =>
          refine .of_silent hopen ?_ ?_ ?_
          · rw [after_of_ok hopened]
            rfl
          · rw [after_of_ok hopened]
            exact size_eq_of_shape_eq (shape_assign _ _ _)
          · rw [hopened, hclosed]
            rfl
      | none | some (.number _) | some (.text _) | some (.boolean _) | some (.function _ _) =>
          exact hfails _ hopened hclosed

/-- A run that fails for itself is not followed by anything. -/
theorem FailsFast.bind_error
    {x : Run α} {prints : List Machine} (hx : FailsFast x m prints) {e : RunError} {m' : Machine}
    (hfail : x m = .error e m') (f : α → Run β) :
    FailsFast (x >>= f) m prints := by
  have hafter : (x >>= f).after m = x.after m := by
    rw [after_bind_of_error hfail, after_of_error hfail]
  refine ⟨?_, ?_, ?_, fun hnone => ?_, fun first rest hprints => ?_⟩
  · rw [hafter, hx.size]
  · rw [hafter, hx.isOpen]
  · rw [hafter]
    exact hx.lines
  · have hclosed := hx.quiet hnone
    rw [hfail] at hclosed
    rw [bind_of_error hclosed, bind_of_error hfail]
    rfl
  · obtain ⟨hsink, line, n, hclosed, hstopped⟩ := hx.stops first rest hprints
    exact ⟨hsink, line, n, bind_of_error hclosed f, hstopped⟩

/-- What follows a run prints later: with a closed sink it is reached only if the run before it has
nothing to print. -/
theorem FailsFast.bind_ok
    {x : Run α} {f : α → Run β} {p q : List Machine} (hopen : m.sink.isOpen = true)
    (hx : FailsFast x m p) {a : α} {m' : Machine} (hok : x m = .ok a m')
    (hf : FailsFast (f a) m' q) :
    FailsFast (x >>= f) m (p ++ q) := by
  have hm' : x.after m = m' := after_of_ok hok
  have hsize : m'.scopes.row.size = m.scopes.row.size := hm' ▸ hx.size
  have hafter : (x >>= f).after m = (f a).after m' := after_bind_of_ok hok f
  have hreached (hp : p = []) : (x >>= f) m.closeSink = f a m'.closeSink := by
    have hclosed := hx.quiet hp
    rw [hok] at hclosed
    exact bind_of_ok hclosed f
  refine ⟨?_, ?_, ?_, fun hnone => ?_, fun first rest hprints => ?_⟩
  · rw [hafter, hf.size, hsize]
  · rw [hafter, hf.isOpen]
  · obtain ⟨lines, hlines, hcount⟩ := hx.lines
    obtain ⟨more, hmore, hmoreCount⟩ := hf.lines
    rw [hm'] at hlines
    refine ⟨lines ++ more, ?_, ?_⟩
    · rw [hafter, hmore, hlines, Array.append_assoc]
    · rw [Array.size_append, hcount, hmoreCount, List.length_append]
  · obtain ⟨hp, hq⟩ := List.append_eq_nil_iff.mp hnone
    rw [hreached hp, bind_of_ok hok]
    exact hf.quiet hq
  · -- The first print is one of the run before if that has any.
    cases p with
    | nil =>
        have hsink : m'.sink = m.sink := hm' ▸ hx.sink_eq hopen
        obtain ⟨hfirst, line, n, hstop, hstopped⟩ := hf.stops first rest hprints
        refine ⟨hfirst.trans hsink, line, n, (hreached rfl).trans hstop, ?_, ?_, ?_⟩
        · rw [hstopped.sink, Machine.closeSink, Machine.closeSink, hsink]
        · rw [hstopped.size, hsize]
        · exact hstopped.global
    | cons earliest others =>
        cases hprints
        obtain ⟨hfirst, line, n, hstop, hstopped⟩ := hx.stops first others rfl
        exact ⟨hfirst, line, n, bind_of_error hstop f, hstopped⟩

/-- A run that is followed by another one fails fast if both do. -/
theorem FailsFast.bind
    {x : Run α} {f : α → Run β} {p : Machine → List Machine} {q : α → Machine → List Machine}
    (hrow : 0 < m.scopes.row.size) (hopen : m.sink.isOpen = true) (hx : FailsFast x m (p m))
    (hf : ∀ a m', x m = .ok a m' → 0 < m'.scopes.row.size → m'.sink.isOpen = true →
      FailsFast (f a) m' (q a m')) :
    FailsFast (x >>= f) m (printsThen x p q m) := by
  rw [printsThen]
  cases hrun : x m with
  | error e m' => exact hx.bind_error hrun f
  | ok a m' =>
      have hm' : x.after m = m' := after_of_ok hrun
      have hrow' : 0 < m'.scopes.row.size := by
        rw [← hm', hx.size]
        exact hrow
      exact hx.bind_ok hopen hrun (hf a m' hrun hrow' (hm' ▸ hx.isOpen))

/-- A failure inside a call or an iteration leaves it, and the scope that was added leaves too. -/
theorem FailsFast.between
    {enter leave : Machine → Machine} (hnests : Machine.Nests enter leave) {x : Run α}
    {prints : List Machine} (hrow : 0 < m.scopes.row.size)
    (hx : FailsFast x (enter m) prints) :
    FailsFast (Run.between enter leave x) m prints := by
  have hafter := after_between enter leave x m
  have hsize : 1 < (x.after (enter m)).scopes.row.size := by
    rw [hx.size, hnests.size_enter]
    omega
  have henter : Run.between enter leave x m.closeSink =
      Run.between (fun _ => (enter m).closeSink) leave x m := by
    rw [Run.between, Run.between, hnests.enter_closeSink]
  refine ⟨?_, ?_, ?_, fun hnone => ?_, fun first rest hprints => ?_⟩
  · rw [hafter, hnests.scopes_leave, (pop_of_one_lt hsize).1, hx.size, hnests.size_enter,
      Nat.add_sub_cancel]
  · rw [hafter, hnests.sink_leave, hx.isOpen]
  · obtain ⟨lines, hlines, hcount⟩ := hx.lines
    exact ⟨lines, by rw [hafter, hnests.sink_leave, hlines, hnests.sink_enter], hcount⟩
  · rw [henter, Run.between, Run.between, hx.quiet hnone]
    cases x (enter m) <;> simp only [shut, hnests.leave_closeSink]
  · obtain ⟨hsink, line, n, hstop, hstopped⟩ := hx.stops first rest hprints
    have hn : 1 < n.scopes.row.size := by
      rw [hstopped.size, hnests.size_enter]
      omega
    refine ⟨hsink.trans (hnests.sink_enter m), line, leave n, ?_, ?_, ?_, ?_⟩
    · rw [henter, Run.between, hstop]
    · rw [hnests.sink_leave, hstopped.sink, Machine.closeSink, Machine.closeSink,
        hnests.sink_enter]
    · rw [hnests.scopes_leave, (pop_of_one_lt hn).1, hstopped.size, hnests.size_enter,
        Nat.add_sub_cancel]
    · rw [hnests.scopes_leave, (pop_of_one_lt hn).2, hstopped.global]

/-- With a closed sink every run stops where it prints first. -/
theorem PrintsIn.failsFast
    {act : Run α} {prints : Machine → List Machine} (h : PrintsIn act prints) {m : Machine}
    (hrow : 0 < m.scopes.row.size) (hopen : m.sink.isOpen = true) :
    FailsFast act m (prints m) := by
  induction h generalizing m with
  | pure a => exact .of_silent hopen rfl rfl rfl
  | fail line cause => exact .of_silent hopen rfl rfl rfl
  | declare r => exact .of_silent hopen rfl (size_modifyAt _ _ _) rfl
  | define f => exact .of_silent hopen rfl (size_modifyAt _ _ _) rfl
  | push line arguments => exact failsFast_push line arguments hopen
  | print line text =>
      dsimp only
      rw [if_pos hopen]
      exact failsFast_print line text hopen
  | find name _ ih => exact (ih (m.scopes.find? name) hrow hopen).congr rfl rfl
  | bind _ _ ihx ihf =>
      refine (ihx hrow hopen).bind hrow hopen fun a m' hok hrow' hopen' => ?_
      exact ihf a m m' hok hrow' hopen'
  | iterate counter _ ih =>
      have hnests := Machine.nests_iteration counter
      exact .between hnests hrow (ih (hnests.size_pos m) hopen)
  | call arguments _ ih =>
      have hnests := Machine.nests_call arguments
      exact .between hnests hrow (ih (hnests.size_pos m) hopen)

end Run

namespace Machine

/-- Failures are not swallowed.  Take a machine with an open sink, run a block in it, and run the
block again with the sink closed.  If nothing is printed, both runs come to the same end and leave
the same machine, but for the sink.  Otherwise the second run fails since the output is closed,
delivers nothing, and leaves the global scope as it was in the machine in which the first run
printed first.  The first run prints in certain machines, one for each line that it delivers. -/
theorem closed_sink_stops_at_first_print
    (ss : List Statement) {m : Machine} (hrow : 0 < m.scopes.row.size)
    (hopen : m.sink.isOpen = true) :
    (∃ prints, (Run.block (Run.invoke m.room) ss none).PrintsIn prints) ∧
    ∀ prints, (Run.block (Run.invoke m.room) ss none).PrintsIn prints →
      ((runBlock ss).after m).sink.lines.size = m.sink.lines.size + (prints m).length ∧
      (((runBlock ss).after m).sink.lines = m.sink.lines →
        runBlock ss m.closeSink = Run.shut (runBlock ss m)) ∧
      (((runBlock ss).after m).sink.lines ≠ m.sink.lines →
        ∃ first rest line m', prints m = first :: rest ∧ first.sink = m.sink ∧
          runBlock ss m.closeSink = .error ⟨.closedOutput, line⟩ m' ∧
          m'.sink.lines = m.sink.lines ∧ m'.scopes.row[top]? = first.scopes.row[top]?) := by
  refine ⟨Run.printsIn_block m.room ss none, fun prints hprints => ?_⟩
  have hfast := hprints.failsFast hrow hopen
  obtain ⟨lines, hlines, hcount⟩ := hfast.lines
  have hafter : ((runBlock ss).after m).sink.lines = m.sink.lines ++ lines := hlines
  refine ⟨?_, fun hsame => ?_, fun hmore => ?_⟩
  · rw [hafter, Array.size_append, hcount]
  · have hsize := congrArg Array.size hsame
    rw [hafter, Array.size_append] at hsize
    exact hfast.quiet (List.eq_nil_of_length_eq_zero (by omega))
  · cases hm : prints m with
    | nil =>
        rw [hm] at hcount
        rw [hafter, Array.eq_empty_of_size_eq_zero hcount, Array.append_empty] at hmore
        exact absurd rfl hmore
    | cons first rest =>
        obtain ⟨hsink, line, m', hstop, hstopped⟩ := hfast.stops first rest hm
        refine ⟨first, rest, line, m', rfl, hsink, hstop, ?_, hstopped.global⟩
        rw [hstopped.sink]
        rfl

/-- A function prints a truth value that is overwritten when the call has returned.  With a closed
sink the call fails, and the value stays that of the first print. -/
theorem value_kept_at_first_print :
    let ss : List Statement :=
      [.declare .bool "a" (.literal (.boolean true) 1) 1,
        .function "f" [] [.expression (.call "shon" [.name "a" 2] 2) 2] 2,
        .expression (.call "f" [] 3) 3,
        .declare .bool "a" (.literal (.boolean false) 4) 4]
    ((runBlock ss).after initial).sink.lines = #["true"] ∧
      ((runBlock ss).after initial).scopes.recordAt? "a" top =
        some ⟨.bool, "a", .boolean false⟩ ∧
      ∃ prints first rest line m',
        (Run.block (Run.invoke initial.room) ss none).PrintsIn prints ∧
        prints initial = first :: rest ∧
        first.scopes.recordAt? "a" top = some ⟨.bool, "a", .boolean true⟩ ∧
        runBlock ss initial.closeSink = .error ⟨.closedOutput, line⟩ m' ∧
        m'.sink.lines = #[] ∧ m'.scopes.row[top]? = first.scopes.row[top]? := by
  intro ss
  have hlines : ((runBlock ss).after initial).sink.lines = #["true"] := by
    with_unfolding_all rfl
  have hlater : ((runBlock ss).after initial).scopes.recordAt? "a" top =
      some ⟨.bool, "a", .boolean false⟩ := by
    with_unfolding_all rfl
  have hkept : ((runBlock ss).after initial.closeSink).scopes.recordAt? "a" top =
      some ⟨.bool, "a", .boolean true⟩ := by
    with_unfolding_all rfl
  have hrow : 0 < initial.scopes.row.size := by
    obtain ⟨⟨records, hscopes⟩, -⟩ := atRest_initial
    rw [hscopes]
    exact Nat.one_pos
  obtain ⟨⟨prints, hprints⟩, hall⟩ := closed_sink_stops_at_first_print ss hrow rfl
  obtain ⟨first, rest, line, m', hfirst, -, hstop, hnone, hglobal⟩ :=
    (hall prints hprints).2.2 (by rw [hlines]; decide)
  rw [Run.after_of_error hstop, recordAt?, hglobal] at hkept
  exact ⟨hlines, hlater, prints, first, rest, line, m', hprints, hfirst, hkept, hstop, hnone,
    hglobal⟩

end Machine
end ColonScript
