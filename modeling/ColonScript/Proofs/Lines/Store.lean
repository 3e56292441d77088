import ColonScript.Native
import ColonScript.Proofs.Lines.Alignment
import ColonScript.Value.Operation

/-!
# Values, scopes and machines up to lines

Functions are kept as values together with the lines of their bodies, so lines are part of what a
machine holds.  This module extends alignment to values, scopes and machines and shows that
everything a run does with a store keeps it: the stores that come out are aligned if those that
go in are.
-/

namespace ColonScript

/-- Two user functions with bodies of the same form. -/
structure UserFunction.Aligned (L : Nat → Nat → Prop) (f g : UserFunction) : Prop where
  name : f.name = g.name
  parameters : f.parameters = g.parameters
  body : List.Forall₂ (Statement.Aligned L) f.body g.body
  line : L f.line g.line

/-- Two functions that differ in lines only.  A native is what it is; one that prints the line of
its call is admitted only if lines that go together are equal. -/
inductive Function.Aligned (L : Nat → Nat → Prop) : Function → Function → Prop
  | user {f g : UserFunction} : f.Aligned L g → Aligned L (.user f) (.user g)
  | native (f : NativeFunction) : (f.routine = .say → ∀ k l, L k l → k = l) →
      Aligned L (.native f) (.native f)

/-- Two values that differ in the lines of functions only. -/
inductive Value.Aligned (L : Nat → Nat → Prop) : Value → Value → Prop
  | number (n : Float) : Aligned L (.number n) (.number n)
  | text (s : String) : Aligned L (.text s) (.text s)
  | boolean (b : Bool) : Aligned L (.boolean b) (.boolean b)
  | array {vs ws : List Value} : List.Forall₂ (Aligned L) vs ws →
      Aligned L (.array vs) (.array ws)
  | function (identity : Nat) {f g : Function} : f.Aligned L g →
      Aligned L (.function identity f) (.function identity g)

/-- Two records with aligned values. -/
structure Record.Aligned (L : Nat → Nat → Prop) (r r' : Record) : Prop where
  kind : r.kind = r'.kind
  name : r.name = r'.name
  value : r.value.Aligned L r'.value

/-- Two collections of records with aligned records under every name. -/
def Records.Aligned (L : Nat → Nat → Prop) (rs rs' : Records) : Prop :=
  ∀ name, Option.Rel (Record.Aligned L) (rs.find? name) (rs'.find? name)

/-- Two scopes with the same role and links and with aligned records. -/
structure Scope.Aligned (L : Nat → Nat → Prop) (a b : Scope) : Prop where
  role : a.role = b.role
  parent : a.parent = b.parent
  resume : a.resume = b.resume
  records : a.records.Aligned L b.records

/-- Scopes that are aligned in every place. -/
structure Scopes.Aligned (L : Nat → Nat → Prop) (s t : Scopes) : Prop where
  row : ∀ place : Nat, Option.Rel (Scope.Aligned L) s.row[place]? t.row[place]?
  current : s.current = t.current

/-- Two machines that differ in the lines of functions only. -/
structure Machine.Aligned (L : Nat → Nat → Prop) (m m' : Machine) : Prop where
  scopes : m.scopes.Aligned L m'.scopes
  sink : m.sink = m'.sink
  depth : m.depth = m'.depth
  nextIdentity : m.nextIdentity = m'.nextIdentity

/-- Two arguments of a native with aligned values. -/
structure Argument.Aligned (L : Nat → Nat → Prop) (a b : Argument) : Prop where
  value : a.value.Aligned L b.value
  binding : a.binding = b.binding

/-- Two endings of the same kind with aligned values. -/
inductive Ending.Aligned (L : Nat → Nat → Prop) : Ending → Ending → Prop
  | ran {v w : Option Value} : Option.Rel (Value.Aligned L) v w → Aligned L (.ran v) (.ran w)
  | returned {v w : Option Value} : Option.Rel (Value.Aligned L) v w →
      Aligned L (.returned v) (.returned w)

section
variable {α β γ δ : Type} {R : α → β → Prop} {S : γ → δ → Prop}

theorem isSome_eq_of_rel
    {x : Option α} {y : Option β} (h : Option.Rel R x y) :
    x.isSome = y.isSome := by
  cases h <;> rfl

theorem rel_map
    {x : Option α} {y : Option β} {f : α → γ} {g : β → δ} (h : Option.Rel R x y)
    (hf : ∀ a b, R a b → S (f a) (g b)) :
    Option.Rel S (x.map f) (y.map g) := by
  cases h with
  | some hR => exact .some (hf _ _ hR)
  | none => exact .none

theorem rel_bind
    {x : Option α} {y : Option β} {f : α → Option γ} {g : β → Option δ} (h : Option.Rel R x y)
    (hf : ∀ a b, R a b → Option.Rel S (f a) (g b)) :
    Option.Rel S (x.bind f) (y.bind g) := by
  cases h with
  | some hR => exact hf _ _ hR
  | none => exact .none

theorem rel_getElem?
    {as : List α} {bs : List β} (h : List.Forall₂ R as bs) (position : Nat) :
    Option.Rel R as[position]? bs[position]? := by
  induction h generalizing position with
  | nil => exact .none
  | cons hR _ ih =>
      cases position with
      | zero => exact .some hR
      | succ position => exact ih position

theorem rel_or
    {x x' : Option α} {y y' : Option β} (h : Option.Rel R x y) (h' : Option.Rel R x' y') :
    Option.Rel R (x.or x') (y.or y') := by
  cases h with
  | some hR => exact .some hR
  | none => exact h'

end

variable {L : Nat → Nat → Prop}

theorem Ending.Aligned.value
    {a b : Ending} (h : a.Aligned L b) :
    Option.Rel (Value.Aligned L) a.value b.value := by
  cases h with
  | ran hv | returned hv => exact hv

/-! ## Values -/

theorem Function.Aligned.name_eq
    {f g : Function} (h : f.Aligned L g) :
    f.name = g.name := by
  cases h with
  | user hfg => exact hfg.name
  | native => rfl

namespace Value

theorem Aligned.kind_eq
    {v w : Value} (h : v.Aligned L w) :
    v.kind = w.kind := by
  cases h <;> rfl

mutual

/-- Aligned values are shown alike. -/
theorem Aligned.display_eq
    {v w : Value} (h : v.Aligned L w) :
    v.display = w.display := by
  cases h with
  | number | text | boolean => rfl
  | array hs => rw [display, display, displayEach_eq_of_aligned hs]
  | function _ hf => rw [display, display, hf.name_eq]
termination_by sizeOf v

theorem displayEach_eq_of_aligned
    {vs ws : List Value} (h : List.Forall₂ (Value.Aligned L) vs ws) :
    displayEach vs = displayEach ws := by
  cases h with
  | nil => rfl
  | cons hv hs => rw [displayEach, displayEach, hv.display_eq, displayEach_eq_of_aligned hs]
termination_by sizeOf vs

end

mutual

/-- Equality does not look at lines: it tells functions apart by identity. -/
theorem Aligned.equal_eq
    {v w v' w' : Value} (h : v.Aligned L w) (h' : v'.Aligned L w') :
    v.equal v' = w.equal w' := by
  cases h with
  | number | text | boolean => cases h' <;> rfl
  | array hs =>
      cases h' with
      | array hs' => rw [equal_array, equal_array, equalEach_eq_of_aligned hs hs']
      | _ => rfl
  | function _ hf => cases h' <;> rfl
termination_by sizeOf v

theorem equalEach_eq_of_aligned
    {vs ws vs' ws' : List Value} (h : List.Forall₂ (Value.Aligned L) vs ws)
    (h' : List.Forall₂ (Value.Aligned L) vs' ws') :
    equalEach vs vs' = equalEach ws ws' := by
  cases h with
  | nil => cases h' <;> rfl
  | cons hv hs =>
      cases h' with
      | nil => rfl
      | cons hv' hs' =>
          rw [equalEach, equalEach, hv.equal_eq hv', equalEach_eq_of_aligned hs hs']
termination_by sizeOf vs

end

theorem Aligned.asNumber
    {v w : Value} (h : v.Aligned L w) {k l : Nat} (hline : L k l) :
    OutcomesRelate (RunError.Aligned L) Eq (v.asNumber k) (w.asNumber l) := by
  cases h with
  | number n => exact .ok rfl
  | _ => exact .error ⟨rfl, hline⟩

theorem Aligned.asInteger
    {v w : Value} (h : v.Aligned L w) {k l : Nat} (hline : L k l) :
    OutcomesRelate (RunError.Aligned L) Eq (v.asInteger k) (w.asInteger l) := by
  refine (h.asNumber hline).bind ?_
  rintro n _ rfl
  rw [integerOf, integerOf]
  cases Number.toInteger n with
  | ok i => exact .ok rfl
  | error e => exact .error ⟨rfl, hline⟩

theorem Aligned.asBool
    {v w : Value} (h : v.Aligned L w) {k l : Nat} (hline : L k l) :
    OutcomesRelate (RunError.Aligned L) Eq (v.asBool k) (w.asBool l) := by
  cases h with
  | boolean b => exact .ok rfl
  | _ => exact .error ⟨rfl, hline⟩

theorem Aligned.asElements
    {v w : Value} (h : v.Aligned L w) {k l : Nat} (hline : L k l) :
    OutcomesRelate (RunError.Aligned L) (List.Forall₂ (Value.Aligned L)) (v.asElements k)
      (w.asElements l) := by
  cases h with
  | array hs => exact .ok hs
  | _ => exact .error ⟨rfl, hline⟩

theorem Aligned.negate
    {v w : Value} (h : v.Aligned L w) {k l : Nat} (hline : L k l) :
    OutcomesRelate (RunError.Aligned L) (Value.Aligned L) (v.negate k) (w.negate l) := by
  cases h with
  | number n => exact .ok (.number _)
  | _ => exact .error ⟨rfl, hline⟩

/-- A text is read as a number alike, and everything else is appended as it is. -/
theorem Aligned.coerce
    {v w : Value} (h : v.Aligned L w) :
    (Native.coerce v).Aligned L (Native.coerce w) := by
  cases h with
  | text s =>
      rw [Native.coerce]
      split
      · exact .number _
      · exact .text s
  | number n => exact .number n
  | boolean b => exact .boolean b
  | array hs => exact .array hs
  | function i hf => exact .function i hf

end Value

theorem BinaryOp.onNumbers_aligned
    (op : BinaryOp) (x y : Float) {k l : Nat} (hline : L k l) :
    OutcomesRelate (RunError.Aligned L) Eq (op.onNumbers k x y) (op.onNumbers l x y) := by
  cases op with
  | add | sub | mul => exact .ok rfl
  | div | mod =>
      rw [onNumbers, onNumbers]
      split
      · exact .error ⟨rfl, hline⟩
      · exact .ok rfl
  | equal => exact .error ⟨rfl, hline⟩

theorem BinaryOp.arithmetic_aligned
    (op : BinaryOp) {v w v' w' : Value} (h : v.Aligned L w) (h' : v'.Aligned L w') {k l : Nat}
    (hline : L k l) :
    OutcomesRelate (RunError.Aligned L) (Value.Aligned L) (op.arithmetic k v v')
      (op.arithmetic l w w') := by
  cases h with
  | number x =>
      cases h' with
      | number y =>
          refine (op.onNumbers_aligned x y hline).map ?_
          rintro n _ rfl
          exact .number n
      | _ => exact .error ⟨rfl, hline⟩
  | _ => exact .error ⟨congrArg (RunCause.operandKinds op _) h'.kind_eq, hline⟩

theorem BinaryOp.apply_aligned
    (op : BinaryOp) {v w v' w' : Value} (h : v.Aligned L w) (h' : v'.Aligned L w') {k l : Nat}
    (hline : L k l) :
    OutcomesRelate (RunError.Aligned L) (Value.Aligned L) (op.apply k v v') (op.apply l w w') := by
  cases op with
  | equal =>
      rw [apply, apply, h.equal_eq h']
      exact .ok (.boolean _)
  | add => exact arithmetic_aligned .add h h' hline
  | sub => exact arithmetic_aligned .sub h h' hline
  | mul => exact arithmetic_aligned .mul h h' hline
  | div => exact arithmetic_aligned .div h h' hline
  | mod => exact arithmetic_aligned .mod h h' hline

/-! ## Scopes -/

namespace Records

theorem Aligned.put
    {rs rs' : Records} (h : rs.Aligned L rs') (name : String) {r r' : Record}
    (hr : r.Aligned L r') :
    (rs.put name r).Aligned L (rs'.put name r') := by
  intro key
  rw [find?_put, find?_put]
  split
  · exact .some hr
  · exact h key

theorem Aligned.insert
    {rs rs' : Records} (h : rs.Aligned L rs') {r r' : Record} (hr : r.Aligned L r') :
    (rs.insert r).Aligned L (rs'.insert r') := by
  rw [Records.insert, Records.insert, hr.name]
  exact h.put r'.name hr

theorem Aligned.revalue
    {rs rs' : Records} (h : rs.Aligned L rs') (name : String) {v w : Value}
    (hv : v.Aligned L w) :
    (Scopes.revalue name v rs).Aligned L (Scopes.revalue name w rs') := by
  rw [Scopes.revalue, Scopes.revalue]
  have hfound := h name
  generalize rs.find? name = found at hfound
  generalize rs'.find? name = found' at hfound
  cases hfound with
  | none => exact h
  | some hr => exact h.put name ⟨hr.kind, hr.name, hv⟩

end Records

namespace Scopes

variable {s t : Scopes}

theorem Aligned.size_eq
    (h : s.Aligned L t) :
    s.row.size = t.row.size := by
  have hiff (place : Nat) : s.row.size ≤ place ↔ t.row.size ≤ place := by
    have hsome := isSome_eq_of_rel (h.row place)
    rw [← Array.getElem?_eq_none_iff, ← Array.getElem?_eq_none_iff, ← Option.not_isSome_iff_eq_none,
      ← Option.not_isSome_iff_eq_none, hsome]
  have hle := (hiff t.row.size).mpr (Nat.le_refl _)
  have hge := (hiff s.row.size).mp (Nat.le_refl _)
  omega

/-- Names are looked for in the same places. -/
theorem Aligned.chainFrom_eq
    (h : s.Aligned L t) (place : Nat) :
    chainFrom s.row place = chainFrom t.row place := by
  induction place using Nat.strongRecOn with
  | ind place ih =>
      rw [chainFrom, chainFrom]
      have hrow := h.row place
      generalize s.row[place]? = found at hrow
      generalize t.row[place]? = found' at hrow
      cases hrow with
      | none => rfl
      | @some a b hscope =>
          dsimp only
          rw [hscope.parent]
          split
          · rfl
          · split
            · next hlt => rw [ih _ hlt]
            · rfl

theorem Aligned.chain_eq
    (h : s.Aligned L t) :
    s.chain = t.chain := by
  rw [chain, chain, h.current, h.chainFrom_eq]

theorem Aligned.recordAt?
    (h : s.Aligned L t) (name : String) (place : Nat) :
    Option.Rel (Record.Aligned L) (s.recordAt? name place) (t.recordAt? name place) :=
  rel_bind (h.row place) fun _ _ hscope => hscope.records name

theorem Aligned.locate?_eq
    (h : s.Aligned L t) (name : String) :
    s.locate? name = t.locate? name := by
  have htest (place : Nat) : (s.recordAt? name place).isSome = (t.recordAt? name place).isSome :=
    isSome_eq_of_rel (h.recordAt? name place)
  simp only [locate?, h.chain_eq, htest]

/-- A name means aligned records. -/
theorem Aligned.find?
    (h : s.Aligned L t) (name : String) :
    Option.Rel (Record.Aligned L) (s.find? name) (t.find? name) := by
  rw [Scopes.find?, Scopes.find?, h.locate?_eq]
  cases t.locate? name with
  | none => exact .none
  | some place => exact h.recordAt? name place

theorem Aligned.modifyAt
    (h : s.Aligned L t) (place : Nat) {f g : Records → Records}
    (hf : ∀ rs rs' : Records, rs.Aligned L rs' → (f rs).Aligned L (g rs')) :
    (s.modifyAt place f).Aligned L (t.modifyAt place g) := by
  refine ⟨fun other => ?_, h.current⟩
  rw [Scopes.modifyAt, Scopes.modifyAt, Array.getElem?_modify, Array.getElem?_modify]
  split
  · exact rel_map (h.row other) fun a b hscope =>
      ⟨hscope.role, hscope.parent, hscope.resume, hf _ _ hscope.records⟩
  · exact h.row other

theorem Aligned.insertAt
    (h : s.Aligned L t) (place : Nat) {r r' : Record} (hr : r.Aligned L r') :
    (s.modifyAt place (·.insert r)).Aligned L (t.modifyAt place (·.insert r')) :=
  h.modifyAt place fun _ _ hrecords => hrecords.insert hr

theorem Aligned.declareTop
    (h : s.Aligned L t) {r r' : Record} (hr : r.Aligned L r') :
    (s.declareTop r).Aligned L (t.declareTop r') :=
  h.insertAt top hr

theorem Aligned.bindHere
    (h : s.Aligned L t) {r r' : Record} (hr : r.Aligned L r') :
    (s.bindHere r).Aligned L (t.bindHere r') := by
  rw [Scopes.bindHere, Scopes.bindHere, h.current]
  exact h.insertAt t.current hr

theorem Aligned.isBinding_eq
    (h : s.Aligned L t) (place : Nat) :
    s.isBinding place = t.isBinding place := by
  rw [isBinding, isBinding]
  have hrow := h.row place
  generalize s.row[place]? = found at hrow
  generalize t.row[place]? = found' at hrow
  cases hrow with
  | none => rfl
  | some hscope => simp only [hscope.role]

theorem Aligned.declare
    (h : s.Aligned L t) {r r' : Record} (hr : r.Aligned L r') :
    (s.declare r).Aligned L (t.declare r') := by
  have hplace : s.declarationPlace = t.declarationPlace := by
    simp only [declarationPlace, h.chain_eq, h.isBinding_eq]
  rw [Scopes.declare, Scopes.declare, hplace]
  exact h.insertAt t.declarationPlace hr

theorem Aligned.assign
    (h : s.Aligned L t) (name : String) {v w : Value} (hv : v.Aligned L w) :
    (s.assign name v).Aligned L (t.assign name w) := by
  rw [Scopes.assign, Scopes.assign, h.locate?_eq]
  cases t.locate? name with
  | none => exact h
  | some place => exact h.modifyAt place fun _ _ hrecords => hrecords.revalue name hv

theorem Aligned.push
    (h : s.Aligned L t) (role : ScopeRole) :
    (s.push role).Aligned L (t.push role) := by
  have hparent : s.parentFor role = t.parentFor role := by
    cases role <;> simp only [parentFor, h.current]
  refine ⟨fun place => ?_, h.size_eq⟩
  rw [Scopes.push, Scopes.push, Array.getElem?_push, Array.getElem?_push, h.size_eq]
  split
  · exact .some ⟨rfl, congrArg some hparent, h.current, fun _ => .none⟩
  · exact h.row place

theorem Aligned.pop
    (h : s.Aligned L t) :
    s.pop.Aligned L t.pop := by
  have hlast := h.row (s.row.size - 1)
  rw [Scopes.pop, Scopes.pop, h.size_eq]
  split
  · exact h
  · rw [Array.back?_eq_getElem?, Array.back?_eq_getElem?, ← h.size_eq]
    generalize s.row[s.row.size - 1]? = found at hlast
    generalize t.row[s.row.size - 1]? = found' at hlast
    cases hlast with
    | none => exact h
    | some hscope =>
        refine ⟨fun place => ?_, hscope.resume⟩
        rw [Array.getElem?_pop, Array.getElem?_pop, h.size_eq]
        split
        · exact h.row place
        · exact .none

theorem Aligned.foldl_bindHere
    (h : s.Aligned L t) {rs rs' : List Record} (hrs : List.Forall₂ (Record.Aligned L) rs rs') :
    (rs.foldl Scopes.bindHere s).Aligned L (rs'.foldl Scopes.bindHere t) := by
  induction hrs generalizing s t with
  | nil => exact h
  | cons hr _ ih => exact ih (h.bindHere hr)

end Scopes

/-! ## Machines -/

namespace Machine

variable {m m' : Machine}

/-- A name means aligned values. -/
theorem Aligned.valueOf?
    (h : m.Aligned L m') (name : String) :
    Option.Rel (Value.Aligned L) (m.valueOf? name) (m'.valueOf? name) :=
  rel_map (h.scopes.find? name) fun _ _ hr => hr.value

theorem Aligned.mapScopes
    (h : m.Aligned L m') {f g : Scopes → Scopes} (hf : (f m.scopes).Aligned L (g m'.scopes)) :
    (m.mapScopes f).Aligned L (m'.mapScopes g) :=
  ⟨hf, h.sink, h.depth, h.nextIdentity⟩

theorem Aligned.newFunction
    (h : m.Aligned L m') {f g : Function} (hf : f.Aligned L g) :
    (m.newFunction f).1.Aligned L (m'.newFunction g).1 ∧
      (m.newFunction f).2.Aligned L (m'.newFunction g).2 := by
  refine ⟨?_, h.scopes, h.sink, h.depth, congrArg (· + 1) h.nextIdentity⟩
  rw [Machine.newFunction, Machine.newFunction, h.nextIdentity]
  exact .function _ hf

theorem Aligned.define
    (h : m.Aligned L m') {f g : UserFunction} (hf : f.Aligned L g) :
    (m.define f).Aligned L (m'.define g) := by
  obtain ⟨hvalue, hscopes, hsink, hdepth, hnext⟩ := h.newFunction (.user hf)
  have hrecord : Record.Aligned L ⟨.fn, f.name, (m.newFunction (.user f)).1⟩
      ⟨.fn, g.name, (m'.newFunction (.user g)).1⟩ :=
    ⟨rfl, hf.name, hvalue⟩
  exact ⟨hscopes.declareTop hrecord, hsink, hdepth, hnext⟩

theorem Aligned.provide
    (h : m.Aligned L m') {native : NativeFunction}
    (hnative : native.routine = .say → ∀ k l, L k l → k = l) :
    (m.provide native).Aligned L (m'.provide native) := by
  obtain ⟨hvalue, hscopes, hsink, hdepth, hnext⟩ := h.newFunction (.native native hnative)
  have hrecord : Record.Aligned L ⟨.fn, native.name, (m.newFunction (.native native)).1⟩
      ⟨.fn, native.name, (m'.newFunction (.native native)).1⟩ :=
    ⟨rfl, rfl, hvalue⟩
  exact ⟨hscopes.declare hrecord, hsink, hdepth, hnext⟩

theorem Aligned.emit
    (h : m.Aligned L m') (text : String) :
    (m.emit text).Aligned L (m'.emit text) := by
  refine ⟨h.scopes, ?_, h.depth, h.nextIdentity⟩
  rw [Machine.emit, Machine.emit, h.sink]

theorem Aligned.enterIteration
    (h : m.Aligned L m') (counter : String) (n : Float) :
    (m.enterIteration ⟨.num, counter, .number n⟩).Aligned L
      (m'.enterIteration ⟨.num, counter, .number n⟩) :=
  h.mapScopes ((h.scopes.push .binding).bindHere ⟨rfl, rfl, .number n⟩)

theorem Aligned.leaveIteration
    (h : m.Aligned L m') :
    m.leaveIteration.Aligned L m'.leaveIteration :=
  h.mapScopes h.scopes.pop

theorem Aligned.enterCall
    (h : m.Aligned L m') {rs rs' : List Record} (hrs : List.Forall₂ (Record.Aligned L) rs rs') :
    (m.enterCall rs).Aligned L (m'.enterCall rs') :=
  ⟨(h.scopes.push .frame).foldl_bindHere hrs, h.sink, congrArg (· + 1) h.depth, h.nextIdentity⟩

theorem Aligned.leaveCall
    (h : m.Aligned L m') :
    m.leaveCall.Aligned L m'.leaveCall :=
  ⟨h.scopes.pop, h.sink, congrArg (· - 1) h.depth, h.nextIdentity⟩

end Machine
end ColonScript
