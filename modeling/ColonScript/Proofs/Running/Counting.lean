import ColonScript.Proofs.Number.Exactness
import ColonScript.Proofs.Running.Changes

/-!
# Loops count from bound to bound

A loop runs its bounds once, the first one first, and then its body once for each integer from one
bound to the other, up or down, both bounds included.  Bounds are integers that numbers tell apart,
so all integers between them are too: the counter always gets a number, which denotes exactly the
integer that it stands for.
-/

namespace ColonScript

/-- The integers from one bound to the other, both included, in the direction of the second. -/
def through (start stop : Int) : List Int :=
  if start ≤ stop then (List.range ((stop - start).toNat + 1)).map fun k : Nat => start + k
  else (List.range ((start - stop).toNat + 1)).map fun k : Nat => start - k

theorem length_through
    (start stop : Int) :
    (through start stop).length = (stop - start).natAbs + 1 := by
  unfold through
  split
  · rw [List.length_map, List.length_range]
    omega
  · rw [List.length_map, List.length_range]
    omega

/-- The integers of a loop are evenly spaced from its first bound on. -/
theorem through_eq_map
    (start stop : Int) :
    through start stop = (List.range ((stop - start).natAbs + 1)).map fun k : Nat =>
      start + (if start ≤ stop then 1 else -1) * k := by
  unfold through
  split
  · next hup =>
    rw [show (stop - start).toNat = (stop - start).natAbs by omega]
    exact List.map_congr_left fun k _ => by rw [one_mul]
  · next hdown =>
    rw [show (start - stop).toNat = (stop - start).natAbs by omega]
    exact List.map_congr_left fun k _ => by rw [neg_one_mul, Int.sub_eq_add_neg]

theorem between_of_mem_through
    {start stop i : Int} (h : i ∈ through start stop) :
    min start stop ≤ i ∧ i ≤ max start stop := by
  unfold through at h
  split at h
  · obtain ⟨k, hk, rfl⟩ := List.mem_map.mp h
    rw [List.mem_range] at hk
    omega
  · obtain ⟨k, hk, rfl⟩ := List.mem_map.mp h
    rw [List.mem_range] at hk
    omega

namespace Machine

/-- The iterations of a loop, one for each of some integers, that start in a machine and come to an
end.  Each adds a scope with the counter, runs the body and removes the scope.  How the body ends
is dropped, also if it returns; the first body that fails ends the loop with its failure. -/
inductive Iterates (counter : String) (body : List Statement) :
    List Int → Machine → EStateM.Result RunError Machine Ending → Prop
  | done (m : Machine) : Iterates counter body [] m (.ok (.ran none) m)
  | failed {i : Int} {rest : List Int} {n : Float} {m m' : Machine} {e : RunError} :
      Number.ofInteger? i = some n →
      runBlock body (m.enterIteration ⟨.num, counter, .number n⟩) = .error e m' →
      Iterates counter body (i :: rest) m (.error e m'.leaveIteration)
  | next {i : Int} {rest : List Int} {n : Float} {m m' : Machine} {ending : Ending}
      {result : EStateM.Result RunError Machine Ending} :
      Number.ofInteger? i = some n →
      runBlock body (m.enterIteration ⟨.num, counter, .number n⟩) = .ok ending m' →
      Iterates counter body rest m'.leaveIteration result →
      Iterates counter body (i :: rest) m result

/-- Iterations come to one end. -/
theorem Iterates.unique
    {counter : String} {body : List Statement} {range : List Int} {m : Machine}
    {r r' : EStateM.Result RunError Machine Ending} (h : Iterates counter body range m r)
    (h' : Iterates counter body range m r') :
    r = r' := by
  induction h with
  | done m =>
      cases h'
      rfl
  | failed hn hrun =>
      cases h' with
      | failed hn' hrun' =>
          cases hn.symm.trans hn'
          cases hrun.symm.trans hrun'
          rfl
      | next hn' hrun' _ =>
          cases hn.symm.trans hn'
          cases hrun.symm.trans hrun'
  | next hn hrun _ ih =>
      cases h' with
      | failed hn' hrun' =>
          cases hn.symm.trans hn'
          cases hrun.symm.trans hrun'
      | next hn' hrun' hrest' =>
          cases hn.symm.trans hn'
          cases hrun.symm.trans hrun'
          exact ih hrest'

end Machine

namespace Run

/-- A bound that is run to an integer. -/
theorem bound_of_expr
    {inv : Invocation} {e : Expr} {m m' : Machine} {v : Value} {line : Nat} {n : Int}
    (h : expr inv e m = .ok (some v) m') (hn : v.asInteger line = .ok n) (which : LoopBound) :
    bound inv which line e m = .ok n m' := by
  have hvalue : value inv e m = .ok v m' := bind_of_ok h _
  rw [bound, bind_of_ok hvalue, hn]
  rfl

theorem iteration_of_ok
    {counter : String} {line : Nat} {body : Run Ending} {i : Int} {n : Float} {m m' : Machine}
    {ending : Ending} (hn : Number.ofInteger? i = some n)
    (h : body (m.enterIteration ⟨.num, counter, .number n⟩) = .ok ending m') :
    iteration counter line body i m = .ok () m'.leaveIteration := by
  rw [iteration, hn]
  exact bind_of_ok (by rw [between, h]) _

theorem iteration_of_error
    {counter : String} {line : Nat} {body : Run Ending} {i : Int} {n : Float} {m m' : Machine}
    {e : RunError} (hn : Number.ofInteger? i = some n)
    (h : body (m.enterIteration ⟨.num, counter, .number n⟩) = .error e m') :
    iteration counter line body i m = .error e m'.leaveIteration := by
  rw [iteration, hn]
  exact bind_of_error (by rw [between, h]) _

/-- Evenly spaced integers that have numbers are iterated over one after the other. -/
theorem iterates_forEach
    {room : Nat} (counter : String) (line : Nat) (body : List Statement) (step : Int)
    (count : Nat) (start : Int) {m : Machine} (hm : m.room = room)
    (hnumbers : ∀ k < count, ∃ n, Number.ofInteger? (start + step * k) = some n) :
    Machine.Iterates counter body ((List.range count).map fun k : Nat => start + step * k) m
      ((forEach step (iteration counter line (block (invoke room) body none)) count start >>=
        fun _ => pure (.ran none)) m) := by
  induction count generalizing start m with
  | zero => exact .done m
  | succ count ih =>
      obtain ⟨n, hn⟩ := hnumbers 0 (Nat.succ_pos count)
      have hlater : ∀ k : Nat, start + step * (k + 1 : Nat) = start + step + step * k := by
        intro k
        push_cast
        ring
      have hrange : ((List.range (count + 1)).map fun k : Nat => start + step * k) =
          start :: (List.range count).map fun k : Nat => start + step + step * k := by
        rw [List.range_succ_eq_map, List.map_cons, List.map_map]
        congr 1
        · simp
        · exact List.map_congr_left fun k _ => hlater k
      rw [show start + step * ((0 : Nat) : Int) = start by simp] at hn
      rw [hrange, forEach, bind_assoc]
      have hentered : (m.enterIteration ⟨.num, counter, .number n⟩).room = room := hm
      have hrun : Machine.runBlock body (m.enterIteration ⟨.num, counter, .number n⟩) =
          block (invoke room) body none (m.enterIteration ⟨.num, counter, .number n⟩) := by
        rw [Machine.runBlock, hentered]
      cases hend : block (invoke room) body none (m.enterIteration ⟨.num, counter, .number n⟩) with
      | error e m' =>
          rw [bind_of_error (iteration_of_error hn hend)]
          exact .failed hn (hrun.trans hend)
      | ok ending m' =>
          -- A body leaves as many calls open as it found, so all bodies have the same room.
          have hroom : m'.room = room :=
            ((permitted_statements room).2.1 body none).room_of_ok hentered hend
          have hleft : m'.leaveIteration.room = room := hroom
          rw [bind_of_ok (iteration_of_ok hn hend)]
          refine .next hn (hrun.trans hend) (ih (start + step) hleft fun k hk => ?_)
          rw [← hlater k]
          exact hnumbers (k + 1) (Nat.succ_lt_succ hk)

end Run

/-- A value that is read as an integer is one within the limit. -/
theorem Value.natAbs_le_of_asInteger
    {v : Value} {line : Nat} {i : Int} (h : v.asInteger line = .ok i) :
    i.natAbs ≤ Number.integerLimit := by
  cases v with
  | number x =>
      change integerOf line x = .ok i at h
      unfold integerOf at h
      split at h
      · next hinteger =>
        cases h
        exact Number.natAbs_le_of_toInteger hinteger
      · cases h
  | text _ | boolean _ | array _ | function _ _ => cases h

/-- Between two integers within the limit all integers have numbers. -/
theorem exists_number_of_mem_through
    {s e i : Int} (hs : s.natAbs ≤ Number.integerLimit) (he : e.natAbs ≤ Number.integerLimit)
    (hi : i ∈ through s e) :
    ∃ n, Number.ofInteger? i = some n ∧ Number.Denotes n i := by
  have hbetween := between_of_mem_through hi
  exact Number.exists_ofInteger? (by omega)

namespace Machine

/-- A loop is the inclusive range between its bounds.  Let its bounds be run to values that are the
integers `s` and `e`, the second in the machine that the first leaves.  Then the integers from `s`
to `e` all have a number for the counter, which denotes exactly the integer, and what the loop does
is to go on from there with one iteration for each of them. -/
theorem loop_counts_inclusive_range
    {counter : String} {first last : Expr} {body : List Statement} {line : Nat}
    {m m₁ m₂ : Machine} {v w : Value} {s e : Int}
    (hfirst : runExpr first m = .ok (some v) m₁) (hlast : runExpr last m₁ = .ok (some w) m₂)
    (hs : v.asInteger line = .ok s) (he : w.asInteger line = .ok e) :
    (through s e).length = (e - s).natAbs + 1 ∧
      (∀ i ∈ through s e, ∃ n, Number.ofInteger? i = some n ∧ Number.Denotes n i) ∧
      ∀ result, runStatement (.loop counter first last body line) m = result ↔
        Iterates counter body (through s e) m₂ result := by
  have hnumbers : ∀ i ∈ through s e, ∃ n, Number.ofInteger? i = some n ∧ Number.Denotes n i :=
    fun i => exists_number_of_mem_through (Value.natAbs_le_of_asInteger hs)
      (Value.natAbs_le_of_asInteger he)
  have hroom₁ : m₁.room = m.room := (Run.permitted_expr m.room first).room_of_ok rfl hfirst
  rw [runExpr, hroom₁] at hlast
  have hroom₂ : m₂.room = m.room := (Run.permitted_expr m.room last).room_of_ok hroom₁ hlast
  have hiterates : Iterates counter body (through s e) m₂
      (runStatement (.loop counter first last body line) m) := by
    rw [runStatement, Run.statement, Run.bind_of_ok (Run.bound_of_expr hfirst hs .first),
      Run.bind_of_ok (Run.bound_of_expr hlast he .last)]
    rw [through_eq_map] at hnumbers ⊢
    refine Run.iterates_forEach counter line body _ _ s hroom₂ fun k hk => ?_
    obtain ⟨n, hn, -⟩ := hnumbers _ (List.mem_map.mpr ⟨k, List.mem_range.mpr hk, rfl⟩)
    exact ⟨n, hn⟩
  refine ⟨length_through s e, hnumbers, fun result => ⟨?_, hiterates.unique⟩⟩
  rintro rfl
  exact hiterates

/-- A loop from two down to minus one whose body prints and returns: it runs four times, since a
return ends the iteration only. -/
theorem loop_counts_down_below_zero :
    let two : Float := Float.ofBits 0x4000000000000000
    let minusOne : Float := Float.ofBits 0xbff0000000000000
    let body : List Statement :=
      [.expression (.call "shon" [.literal (.text "x") 2] 2) 2, .returns (.name "i" 3) 3]
    let loop : Statement :=
      .loop "i" (.literal (.number two) 1) (.literal (.number minusOne) 1) body 1
    (Value.number two).asInteger 1 = .ok 2 ∧ (Value.number minusOne).asInteger 1 = .ok (-1) ∧
      Iterates "i" body [2, 1, 0, -1] initial (runStatement loop initial) ∧
      ((runStatement loop).after initial).sink.lines = #["x", "x", "x", "x"] := by
  have htwo : (Value.number (Float.ofBits 0x4000000000000000)).asInteger 1 = .ok 2 := by
    rfl
  have hminusOne : (Value.number (Float.ofBits 0xbff0000000000000)).asInteger 1 = .ok (-1) := by
    rfl
  intro two minusOne body loop
  have hfirst : runExpr (.literal (.number two) 1) initial = .ok (some (.number two)) initial :=
    rfl
  have hlast : runExpr (.literal (.number minusOne) 1) initial =
      .ok (some (.number minusOne)) initial :=
    rfl
  have hlines : ((runStatement loop).after initial).sink.lines = #["x", "x", "x", "x"] := by
    decide +kernel
  have hiterates : Iterates "i" body (through 2 (-1)) initial (runStatement loop initial) :=
    ((loop_counts_inclusive_range hfirst hlast htwo hminusOne).2.2 _).mp rfl
  exact ⟨htwo, hminusOne, hiterates, hlines⟩

end Machine
end ColonScript
