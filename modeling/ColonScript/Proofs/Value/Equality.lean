import ColonScript.Proofs.Running.Changes
import Mathlib

/-!
# Equality of values

Equality is symmetric and transitive on all values, however deep their arrays are nested, and it is
reflexive exactly on those that hold no NaN.  For numbers this follows from what a double counts as
when it is compared (`Number.comparand`), for arrays by going through their elements.  Functions are
told apart by identity, and every function that is made gets a new one.
-/

namespace ColonScript

/-! ## Numbers -/

namespace Number

open Float.Model

/-- What a double counts as when it is compared: both zeros count as one, and a NaN does not count
as anything. -/
def comparand : UnpackedFloat → Option UnpackedFloat
  | .notANumber => none
  | .zero _ => some (.zero .positive)
  | x => some x

theorem beq_unpacked_iff
    (a b : UnpackedFloat) :
    a.beq b = true ↔ comparand a ≠ none ∧ comparand a = comparand b := by
  cases a with
  | notANumber => cases b <;> simp [UnpackedFloat.beq, UnpackedFloat.compare, comparand]
  | infinity s =>
      cases s <;> cases b with
      | infinity t =>
          cases t <;> simp [UnpackedFloat.beq, UnpackedFloat.compare, comparand, compare]
      | _ => simp [UnpackedFloat.beq, UnpackedFloat.compare, comparand]
  | zero s =>
      cases b with
      | infinity t | finite t =>
          cases t <;> simp [UnpackedFloat.beq, UnpackedFloat.compare, comparand]
      | _ => simp [UnpackedFloat.beq, UnpackedFloat.compare, comparand]
  | finite s mantissa exponent hpos =>
      cases s <;> cases b with
      | infinity t => cases t <;> simp [UnpackedFloat.beq, UnpackedFloat.compare, comparand]
      | finite t mantissa' exponent' hpos' =>
          cases t <;>
            simp [UnpackedFloat.beq, UnpackedFloat.compare, comparand, Ordering.then_eq_eq,
              and_comm]
      | _ => simp [UnpackedFloat.beq, UnpackedFloat.compare, comparand]

/-- Two numbers are equal if they count as the same. -/
theorem beq_iff
    (x y : Float) :
    (x == y) = true ↔ comparand x.toModel.unpack ≠ none ∧
      comparand x.toModel.unpack = comparand y.toModel.unpack :=
  beq_unpacked_iff x.toModel.unpack y.toModel.unpack

theorem beq_symm
    {x y : Float} (h : (x == y) = true) :
    (y == x) = true := by
  rw [beq_iff] at h ⊢
  obtain ⟨hcounts, hsame⟩ := h
  exact ⟨hsame ▸ hcounts, hsame.symm⟩

theorem beq_trans
    {x y z : Float} (hxy : (x == y) = true) (hyz : (y == z) = true) :
    (x == z) = true := by
  rw [beq_iff] at hxy hyz ⊢
  exact ⟨hxy.1, hxy.2.trans hyz.2⟩

theorem beq_self_iff
    (x : Float) :
    (x == x) = true ↔ x.isNaN = false := by
  rw [beq_iff, and_iff_left rfl]
  change _ ↔ x.toModel.unpack.isNaN = false
  cases x.toModel.unpack <;> simp [comparand, UnpackedFloat.isNaN]

end Number

/-! ## Values -/

namespace Value

/-- A value is a NaN, or an array that holds one at some depth. -/
inductive HoldsNaN : Value → Prop
  | number {x : Float} : x.isNaN = true → HoldsNaN (.number x)
  | element {elements : List Value} {v : Value} : v ∈ elements → HoldsNaN v →
      HoldsNaN (.array elements)

theorem equalEach_iff_forall₂
    (as bs : List Value) :
    equalEach as bs = true ↔ List.Forall₂ (fun a b => a.equal b = true) as bs := by
  induction as generalizing bs with
  | nil => cases bs <;> simp [equalEach]
  | cons a as ih => cases bs <;> simp [equalEach, ih]

theorem equal_array_iff
    (as bs : List Value) :
    (array as).equal (array bs) = true ↔ List.Forall₂ (fun a b => a.equal b = true) as bs := by
  rw [equal_array, equalEach_iff_forall₂]

/-- Two values agree: they are of the same kind, and what they hold is equal. -/
inductive Agrees : Value → Value → Prop
  | number {a b : Float} : (a == b) = true → Agrees (.number a) (.number b)
  | text (content : String) : Agrees (.text content) (.text content)
  | boolean (value : Bool) : Agrees (.boolean value) (.boolean value)
  | array {as bs : List Value} : List.Forall₂ (fun a b => a.equal b = true) as bs →
      Agrees (.array as) (.array bs)
  | function (identity : Nat) (f g : Function) :
      Agrees (.function identity f) (.function identity g)

/-- Two values are equal if they agree, so that later proofs see only pairs of one kind. -/
theorem equal_iff_agrees
    (x y : Value) :
    x.equal y = true ↔ x.Agrees y := by
  constructor
  · intro h
    cases x with
    | number a =>
        cases y with
        | number b => exact .number h
        | _ => cases h
    | text s =>
        cases y with
        | text t =>
            obtain rfl := eq_of_beq h
            exact .text s
        | _ => cases h
    | boolean p =>
        cases y with
        | boolean q =>
            obtain rfl := eq_of_beq h
            exact .boolean p
        | _ => cases h
    | array as =>
        cases y with
        | array bs => exact .array ((equal_array_iff as bs).mp h)
        | _ => cases h
    | function identity f =>
        cases y with
        | function identity' g =>
            obtain rfl := eq_of_beq h
            exact .function identity f g
        | _ => cases h
  · intro h
    cases h with
    | number h => exact h
    | text s => exact beq_self_eq_true s
    | boolean p => exact beq_self_eq_true p
    | array h => exact (equal_array_iff _ _).mpr h
    | function identity f g => exact beq_self_eq_true identity

/-- Equal values are of the same kind. -/
theorem kind_eq_of_equal
    {x y : Value} (h : x.equal y = true) :
    x.kind = y.kind := by
  rw [equal_iff_agrees] at h
  cases h <;> rfl

mutual

theorem equal_symm
    {x y : Value} (h : x.equal y = true) :
    y.equal x = true := by
  rw [equal_iff_agrees] at h ⊢
  cases h with
  | number h => exact .number (Number.beq_symm h)
  | text s => exact .text s
  | boolean p => exact .boolean p
  | array h => exact .array (forall₂_equal_symm h)
  | function identity f g => exact .function identity g f
termination_by sizeOf x

theorem forall₂_equal_symm
    {as bs : List Value} (h : List.Forall₂ (fun a b => a.equal b = true) as bs) :
    List.Forall₂ (fun a b => a.equal b = true) bs as := by
  cases h with
  | nil => exact .nil
  | cons ha has => exact .cons (equal_symm ha) (forall₂_equal_symm has)
termination_by sizeOf as

end

mutual

theorem equal_trans
    {x y z : Value} (hxy : x.equal y = true) (hyz : y.equal z = true) :
    x.equal z = true := by
  rw [equal_iff_agrees] at hxy hyz ⊢
  cases hxy with
  | number h =>
      cases hyz with
      | number h' => exact .number (Number.beq_trans h h')
  | text s => exact hyz
  | boolean p => exact hyz
  | array h =>
      cases hyz with
      | array h' => exact .array (forall₂_equal_trans h h')
  | function identity f g =>
      cases hyz with
      | function _ _ g' => exact .function identity f g'
termination_by sizeOf x

theorem forall₂_equal_trans
    {as bs cs : List Value} (h : List.Forall₂ (fun a b => a.equal b = true) as bs)
    (h' : List.Forall₂ (fun a b => a.equal b = true) bs cs) :
    List.Forall₂ (fun a b => a.equal b = true) as cs := by
  cases h with
  | nil => exact h'
  | cons ha has =>
      cases h' with
      | cons hb hbs => exact .cons (equal_trans ha hb) (forall₂_equal_trans has hbs)
termination_by sizeOf as

end

theorem holdsNaN_array_iff
    (elements : List Value) :
    (array elements).HoldsNaN ↔ ∃ v ∈ elements, v.HoldsNaN := by
  constructor
  · intro h
    cases h with
    | element hmem hv => exact ⟨_, hmem, hv⟩
  · rintro ⟨v, hmem, hv⟩
    exact .element hmem hv

/-- A value is equal to itself unless it holds a NaN. -/
theorem equal_self_iff
    (x : Value) :
    x.equal x = true ↔ ¬x.HoldsNaN := by
  cases x with
  | number a =>
      rw [show (number a).equal (number a) = (a == a) from rfl, Number.beq_self_iff]
      constructor
      · rintro hnumber ⟨hnan⟩
        rw [hnumber] at hnan
        cases hnan
      · intro hnone
        exact Bool.eq_false_iff.mpr fun hnan => hnone (.number hnan)
  | array elements =>
      have ih : ∀ v ∈ elements, (v.equal v = true ↔ ¬v.HoldsNaN) :=
        fun v hmem => equal_self_iff v
      rw [equal_array_iff, List.forall₂_same, holdsNaN_array_iff]
      push Not
      exact forall₂_congr ih
  | text s => exact iff_of_true (beq_self_eq_true s) (by rintro ⟨⟩)
  | boolean p => exact iff_of_true (beq_self_eq_true p) (by rintro ⟨⟩)
  | function identity f => exact iff_of_true (beq_self_eq_true identity) (by rintro ⟨⟩)
termination_by sizeOf x
decreasing_by
  have hlt := List.sizeOf_lt_of_mem hmem
  simp only [array.sizeOf_spec]
  omega

end Value

/-! ## Functions -/

namespace Machine

/-- Identities are not given out again. -/
theorem Changes.nextIdentity_le
    {m m' : Machine} (h : m.Changes m') :
    m.nextIdentity ≤ m'.nextIdentity := by
  induction h with
  | none | declared | appended | printed => exact Nat.le_refl _
  | next _ _ ih₁ ih₂ => exact Nat.le_trans ih₁ ih₂
  | defined m f => exact Nat.le_succ _
  | iterated _ _ _ ih => exact ih
  | called _ _ _ _ ih => exact ih

/-- A function that is made later is another one, also if it holds the same. -/
theorem newFunction_not_equal
    {m m' : Machine} {f : Function} (h : (m.newFunction f).2.Changes m') (g : Function) :
    (m.newFunction f).1.equal (m'.newFunction g).1 = false := by
  have hlt : m.nextIdentity < m'.nextIdentity := h.nextIdentity_le
  exact beq_false_of_ne (Nat.ne_of_lt hlt)

end Machine

/-- Equality is a partial equivalence.  The operator `==` on any two values is symmetric and
transitive, and a value is equal to itself exactly if no NaN occurs in it at any depth.  Equal
values are of the same kind; arrays are equal exactly if they have the same length and equal
elements in all positions; functions are equal exactly if they are the same record, and a function
that is made later is another record, whatever it holds. -/
theorem equality_is_partial_equivalence :
    (∀ line x y, BinaryOp.equal.apply line x y = .ok (.boolean (x.equal y))) ∧
    (∀ x y : Value, x.equal y = y.equal x) ∧
    (∀ x y z : Value, x.equal y = true → y.equal z = true → x.equal z = true) ∧
    (∀ x : Value, x.equal x = true ↔ ¬x.HoldsNaN) ∧
    (∀ x y : Value, x.equal y = true → x.kind = y.kind) ∧
    (∀ xs ys, (Value.array xs).equal (.array ys) = true ↔
      List.Forall₂ (fun x y => x.equal y = true) xs ys) ∧
    (∀ i f j g, (Value.function i f).equal (.function j g) = true ↔ i = j) ∧
    ∀ (m m' : Machine) (f g : Function), (m.newFunction f).2.Changes m' →
      (m.newFunction f).1.equal (m'.newFunction g).1 = false := by
  refine ⟨fun _ _ _ => rfl, fun x y => ?_, fun x y z => Value.equal_trans, Value.equal_self_iff,
    fun x y => Value.kind_eq_of_equal, Value.equal_array_iff, fun i f j g => ?_,
    fun m m' f g h => Machine.newFunction_not_equal h g⟩
  · exact Bool.eq_iff_iff.mpr ⟨Value.equal_symm, Value.equal_symm⟩
  · exact beq_iff_eq

/-- Arrays that differ in the sign of a zero inside are equal, one with a NaN inside is not equal to
itself, and two functions without parameters and statements are different. -/
theorem nested_zeros_are_equal :
    let x : Value := .array [.array [.number (Float.ofBits 0)], .text "a"]
    let y : Value := .array [.array [.number (Float.ofBits 0x8000000000000000)], .text "a"]
    let nan : Value := .array [.array [.number (Float.ofBits 0x7ff8000000000000)], .text "a"]
    let f : Function := .user ⟨"f", [], [], 1⟩
    let m := (Machine.initial.newFunction f).2
    x.equal y = true ∧ y.equal x = true ∧ x.equal x = true ∧ x.kind = y.kind ∧ nan.HoldsNaN ∧
      ¬nan.equal nan = true ∧
      (Machine.initial.newFunction f).1.equal (m.newFunction f).1 = false := by
  intro x y nan f m
  obtain ⟨-, hsymm, htrans, hself, hkind, -, -, hmade⟩ := equality_is_partial_equivalence
  have hxy : x.equal y = true := by
    decide
  have hyx : y.equal x = true := (hsymm y x).trans hxy
  have hnan : nan.HoldsNaN := by
    refine .element (List.mem_cons_self) (.element (List.mem_cons_self) (.number ?_))
    decide
  refine ⟨hxy, hyx, htrans x y x hxy hyx, hkind x y hxy, hnan, ?_, ?_⟩
  · exact fun h => (hself nan).mp h hnan
  · exact hmade Machine.initial m f f (.none m)

end ColonScript
