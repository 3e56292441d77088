import ColonScript.Proofs.Number.Numerals
import ColonScript.Proofs.Running.ReadBack
import ColonScript.Proofs.Running.Rejection

/-!
# Appending and indexing

An append is made to a name, not to the value that the name had when the call began: the arguments
are run first, and only then the name is looked up for the record to append to.  What the arguments
themselves have appended is therefore kept.  A name that means something goes on to do so during a
run, and an append changes this one record; so after any number of appends the array has the old
elements first and then the new ones in the order in which they came.
-/

namespace ColonScript
namespace Scopes

variable {s s' : Scopes} {name : String} {place : Nat}

/-! ## Names stay -/

theorem lt_size_of_isSome_recordAt?
    (h : (s.recordAt? name place).isSome) :
    place < s.row.size := by
  rw [recordAt?, Option.isSome_bind] at h
  by_contra hge
  rw [Array.getElem?_eq_none (Nat.le_of_not_lt hge)] at h
  cases h

/-- A change of one scope that takes no name from it takes none from any. -/
theorem isSome_recordAt?_modifyAt
    (h : (s.recordAt? name place).isSome) {other : Nat} {f : Records → Records}
    (hf : ∀ records : Records, (records.find? name).isSome → ((f records).find? name).isSome) :
    ((s.modifyAt other f).recordAt? name place).isSome := by
  by_cases hplace : other = place
  · subst hplace
    rw [recordAt?_modifyAt_self]
    rw [recordAt?] at h
    obtain ⟨r, hr⟩ := Option.isSome_iff_exists.mp h
    obtain ⟨scope, hscope, hfound⟩ := Option.bind_eq_some_iff.mp hr
    rw [hscope]
    exact hf scope.records (Option.isSome_of_eq_some hfound)
  · rw [recordAt?_modifyAt_of_ne hplace]
    exact h

theorem isSome_recordAt?_insert
    (h : (s.recordAt? name place).isSome) (other : Nat) (r : Record) :
    ((s.modifyAt other (·.insert r)).recordAt? name place).isSome := by
  refine isSome_recordAt?_modifyAt h fun records hsome => ?_
  rw [Records.find?_insert]
  split
  · rfl
  · exact hsome

theorem isSome_recordAt?_foldl_bindHere
    (h : (s.recordAt? name place).isSome) (records : List Record) :
    ((records.foldl bindHere s).recordAt? name place).isSome := by
  induction records generalizing s with
  | nil => exact h
  | cons r records ih => exact ih (isSome_recordAt?_insert h s.current r)

/-- A scope that is added leaves the others alone. -/
theorem recordAt?_push_of_lt
    (hlt : place < s.row.size) (role : ScopeRole) :
    (s.push role).recordAt? name place = s.recordAt? name place := by
  rw [recordAt?, recordAt?, push, Array.getElem?_push_lt hlt, Array.getElem?_eq_getElem hlt]

/-- When a scope that was added leaves, the others stay as they are. -/
theorem recordAt?_pop_of_shape_eq_push
    {role : ScopeRole} (h : s'.shape = (s.push role).shape) (hlt : place < s.row.size) :
    s'.pop.recordAt? name place = s'.recordAt? name place := by
  have hsize : s'.row.size = s.row.size + 1 := by
    rw [size_eq_of_shape_eq h, size_push]
  have hmany : ¬s'.row.size ≤ 1 := by omega
  have hbelow : place < s'.row.size - 1 := by omega
  have hlast : s'.row.back? = some s'.row[s'.row.size - 1] := by
    rw [Array.back?_eq_getElem?, Array.getElem?_eq_getElem]
  rw [pop, if_neg hmany, hlast, recordAt?, recordAt?]
  dsimp only
  rw [Array.getElem?_pop, if_pos hbelow]

/-! ## What an assignment changes -/

theorem locate?_eq_some_of_find?_eq_some
    {r : Record} (h : s.find? name = some r) :
    ∃ place, s.locate? name = some place ∧ s.recordAt? name place = some r := by
  rw [find?] at h
  exact Option.bind_eq_some_iff.mp h

/-- An assignment changes the value of the record that the name means and nothing else. -/
theorem recordAt?_assign
    {r : Record} (hplace : s.locate? name = some place) (hr : s.recordAt? name place = some r)
    (value : Value) (key : String) (other : Nat) :
    (s.assign name value).recordAt? key other =
      if key = name ∧ other = place then some { r with value := value }
      else s.recordAt? key other := by
  rw [assign, hplace]
  dsimp only
  by_cases hother : other = place
  · subst hother
    rw [recordAt?] at hr
    obtain ⟨scope, hscope, hfound⟩ := Option.bind_eq_some_iff.mp hr
    rw [recordAt?_modifyAt_self, recordAt?, hscope]
    by_cases hkey : key = name
    · simp [revalue, hfound, hkey]
    · simp [revalue, hfound, hkey, Ne.symm hkey]
  · rw [recordAt?_modifyAt_of_ne (Ne.symm hother), if_neg fun h => hother h.2]

end Scopes

namespace Machine

/-! ## Names go on to mean something -/

/-- When the scope in which changes were made leaves, the others stay as they are. -/
theorem Changes.recordAt?_pop
    {m m' : Machine} (h : m.Changes m') {s : Scopes} {role : ScopeRole}
    (henter : m.scopes.shape = (s.push role).shape) (name : String) {place : Nat}
    (hlt : place < s.row.size) :
    m'.scopes.pop.recordAt? name place = m'.scopes.recordAt? name place := by
  have hsize := Scopes.size_eq_of_shape_eq henter
  have hstack := h.sameStack (by rw [hsize, Scopes.size_push]; omega)
  exact Scopes.recordAt?_pop_of_shape_eq_push (hstack.shape.trans henter) hlt

/-- No change takes a name from a scope that was there before. -/
theorem Changes.isSome_recordAt?
    {m m' : Machine} (h : m.Changes m') {name : String} {place : Nat}
    (hsome : (m.scopes.recordAt? name place).isSome) :
    (m'.scopes.recordAt? name place).isSome := by
  induction h with
  | none m => exact hsome
  | next _ _ ih₁ ih₂ => exact ih₂ (ih₁ hsome)
  | declared m r _ => exact Scopes.isSome_recordAt?_insert hsome _ r
  | defined m f => exact Scopes.isSome_recordAt?_insert hsome _ _
  | @appended m key elements item hfound =>
      obtain ⟨r, hr, -⟩ := Option.map_eq_some_iff.mp hfound
      obtain ⟨target, hlocated, hrecord⟩ := Scopes.locate?_eq_some_of_find?_eq_some hr
      rw [mapScopes, Scopes.recordAt?_assign hlocated hrecord]
      split
      · rfl
      · exact hsome
  | printed m text _ => exact hsome
  | @iterated m m' counter n hbody ih =>
      have hlt := Scopes.lt_size_of_isSome_recordAt? hsome
      have hpop := hbody.recordAt?_pop (Scopes.shape_modifyAt _ _ _) name hlt
      have hentered := Scopes.isSome_recordAt?_insert
        (Scopes.recordAt?_push_of_lt hlt .binding ▸ hsome) m.scopes.row.size
        ⟨.num, counter, .number n⟩
      rw [leaveIteration, mapScopes, hpop]
      exact ih hentered
  | @called m m' arguments _ _ hbody ih =>
      have hlt := Scopes.lt_size_of_isSome_recordAt? hsome
      have hpop := hbody.recordAt?_pop (Scopes.shape_foldl_bindHere _ _) name hlt
      have hentered := Scopes.isSome_recordAt?_foldl_bindHere
        (Scopes.recordAt?_push_of_lt hlt .frame ▸ hsome) arguments
      rw [leaveCall, hpop]
      exact ih hentered

/-- A name that means something means something after every change. -/
theorem Changes.isSome_find?
    {m m' : Machine} (h : m.Changes m') {name : String} (hsome : (m.scopes.find? name).isSome) :
    (m'.scopes.find? name).isSome := by
  rw [Scopes.find?_eq_findSome?, List.findSome?_isSome_iff] at hsome ⊢
  obtain ⟨place, hplace, hrecord⟩ := hsome
  have hlt := Scopes.lt_size_of_isSome_recordAt? hrecord
  have hstack := h.sameStack (Nat.zero_lt_of_lt hlt)
  rw [Scopes.chain_eq_of_shape_eq hstack.shape hstack.current]
  exact ⟨place, hplace, h.isSome_recordAt? hrecord⟩

theorem isSome_find?_of_runExpr
    {m m' : Machine} {e : Expr} {v : Option Value} (h : runExpr e m = .ok v m') {name : String}
    (hsome : (m.scopes.find? name).isSome) :
    (m'.scopes.find? name).isSome := by
  have hchanges := Run.permitted_expr m.room e m rfl
  rw [show (Run.expr (Run.invoke m.room) e).after m = m' from Run.after_of_ok h] at hchanges
  exact hchanges.isSome_find? hsome

/-! ## Appending -/

/-- A name means a native. -/
def MeansNative (m : Machine) (name : String) (f : NativeFunction) : Prop :=
  ∃ identity, m.valueOf? name = some (.function identity (.native f))

/-- The machine differs from another in one record only: where the other has some record under a
name in a place, this one has `r`. -/
structure DiffersAt (m' m : Machine) (name : String) (place : Nat) (r : Record) : Prop where
  stack : m.SameStack m'
  sink : m'.sink = m.sink
  nextIdentity : m'.nextIdentity = m.nextIdentity
  recordAt? : ∀ key other, m'.scopes.recordAt? key other =
    if key = name ∧ other = place then some r else m.scopes.recordAt? key other

section
variable {m m' : Machine} {callee a : String} {e : Expr} {v : Value}

theorem isSome_find?_of_valueOf?_eq_some
    (h : m.valueOf? a = some v) :
    (m.scopes.find? a).isSome := by
  obtain ⟨r, hr, -⟩ := Option.map_eq_some_iff.mp h
  exact Option.isSome_of_eq_some hr

theorem runExpr_name
    (h : m.valueOf? a = some v) (line : Nat) :
    runExpr (.name a line) m = .ok (some v) m := by
  rw [runExpr, Run.expr_name]
  change Run.nameValue a line (m.valueOf? a) m = _
  rw [h]
  rfl

theorem differsAt_assign
    {place : Nat} {r : Record} (hplace : m.scopes.locate? a = some place)
    (hr : m.scopes.recordAt? a place = some r) (value : Value) :
    (m.mapScopes (·.assign a value)).DiffersAt m a place { r with value := value } where
  stack := ⟨Scopes.shape_assign _ _ _, Scopes.current_assign _ _ _, rfl⟩
  sink := rfl
  nextIdentity := rfl
  recordAt? := Scopes.recordAt?_assign hplace hr value

/-- A name that meant the record in which machines differ means what is there now. -/
theorem DiffersAt.find?_eq
    {place : Nat} {r : Record} (h : m'.DiffersAt m a place r)
    (hplace : m.scopes.locate? a = some place) :
    m'.scopes.find? a = some r := by
  have hsome : (m.scopes.recordAt? a place).isSome := (List.find?_eq_some_iff_append.mp hplace).1
  have hnames (other : Nat) :
      (m'.scopes.recordAt? a other).isSome = (m.scopes.recordAt? a other).isSome := by
    rw [h.recordAt?]
    by_cases hother : other = place
    · rw [if_pos ⟨rfl, hother⟩, hother, hsome]
      rfl
    · rw [if_neg fun hboth => hother hboth.2]
  have hplace' : m'.scopes.locate? a = some place := by
    rw [Scopes.locate?, Scopes.chain_eq_of_shape_eq h.stack.shape h.stack.current]
    simp only [hnames]
    exact hplace
  rw [Scopes.find?, hplace', Option.bind_some, h.recordAt?, if_pos ⟨rfl, rfl⟩]

section
variable (hpush : m.MeansNative callee ⟨"push", .exactly 2, .push⟩)
  (ha : (m.scopes.find? a).isSome) (he : runExpr e m = .ok (some v) m')
include hpush ha he

/-- An append hands the name and the value of the item to the native in the machine that the item
has left. -/
theorem runExpr_push
    (l line : Nat) :
    ∃ old, runExpr (.call callee [.name a l, e] line) m =
      Native.push line [⟨old, some a⟩, ⟨v, e.bareName?⟩] m' := by
  obtain ⟨identity, hcallee⟩ := hpush
  obtain ⟨r, hr⟩ := Option.isSome_iff_exists.mp ha
  have hname : m.valueOf? a = some r.value := congrArg (Option.map Record.value) hr
  refine ⟨r.value, ?_⟩
  exact runExpr_of_native hcallee (.next (runExpr_name hname l) (.next he (.none m'))) rfl line

/-- An append is made to the record that its name means when the item has been run. -/
theorem exists_record_of_push
    (l line : Nat) :
    ∃ place r, m'.scopes.locate? a = some place ∧ m'.scopes.recordAt? a place = some r ∧
      (∀ xs, r.value = .array xs → ∃ m'',
        runExpr (.call callee [.name a l, e] line) m = .ok none m'' ∧
          m''.DiffersAt m' a place { r with value := .array (xs ++ [Native.coerce v]) }) ∧
      (r.value.kind ≠ .arr →
        runExpr (.call callee [.name a l, e] line) m = .error ⟨.expectedArray, line⟩ m') := by
  obtain ⟨r, hr⟩ := Option.isSome_iff_exists.mp (isSome_find?_of_runExpr he ha)
  obtain ⟨place, hplace, hrecord⟩ := Scopes.locate?_eq_some_of_find?_eq_some hr
  obtain ⟨old, hcall⟩ := runExpr_push hpush ha he l line
  have hvalue : m'.valueOf? a = some r.value := congrArg (Option.map Record.value) hr
  rw [Native.push_named, hvalue] at hcall
  refine ⟨place, r, hplace, hrecord, fun xs hxs => ?_, fun hkind => ?_⟩
  · rw [hxs] at hcall
    exact ⟨_, hcall, differsAt_assign hplace hrecord _⟩
  · cases hxs : r.value with
    | array xs =>
        rw [hxs] at hkind
        exact absurd rfl hkind
    | _ =>
        rw [hxs] at hcall
        exact hcall

/-- An append that succeeds is seen under its name, behind what was there after the item. -/
theorem valueOf?_of_push_eq_ok
    {xs : List Value} (hxs : m'.valueOf? a = some (.array xs)) {l line : Nat}
    {result : Option Value} {m'' : Machine}
    (h : runExpr (.call callee [.name a l, e] line) m = .ok result m'') :
    m''.valueOf? a = some (.array (xs ++ [Native.coerce v])) := by
  obtain ⟨place, r, hplace, hrecord, happends, -⟩ := exists_record_of_push hpush ha he l line
  have hfound : m'.scopes.find? a = some r := by
    rw [Scopes.find?, hplace, Option.bind_some, hrecord]
  have hvalue : r.value = .array xs := by
    simpa [valueOf?, hfound] using hxs
  obtain ⟨n, hcall, hdiffers⟩ := happends xs hvalue
  cases hcall.symm.trans h
  rw [valueOf?, hdiffers.find?_eq hplace]
  rfl

end

end

/-- From one machine to another, items are appended under a name one after another, and nothing else
happens to the value that it means.  Running an item may itself append. -/
inductive Pushes (a : String) : Machine → List Value → Machine → Prop
  | quiet {m m' : Machine} : m'.valueOf? a = m.valueOf? a → Pushes a m [] m'
  | push {m m₁ m₂ : Machine} {callee : String} {e : Expr} {l line : Nat} {v : Value}
      {vs : List Value} {result : Option Value} :
      m.MeansNative callee ⟨"push", .exactly 2, .push⟩ → Pushes a m vs m₁ →
      runExpr e m = .ok (some v) m₁ →
      runExpr (.call callee [.name a l, e] line) m = .ok result m₂ → Pushes a m (vs ++ [v]) m₂
  | next {m m₁ m₂ : Machine} {vs ws : List Value} :
      Pushes a m vs m₁ → Pushes a m₁ ws m₂ → Pushes a m (vs ++ ws) m₂

/-- Appended items stand behind the elements that were there, in the order in which they came. -/
theorem Pushes.valueOf?_eq
    {a : String} {m m' : Machine} {vs : List Value} (h : Pushes a m vs m') {xs : List Value}
    (hxs : m.valueOf? a = some (.array xs)) :
    m'.valueOf? a = some (.array (xs ++ vs.map Native.coerce)) := by
  induction h generalizing xs with
  | quiet hsame => rw [hsame, hxs, List.map_nil, List.append_nil]
  | push hpush _ he hcall ih =>
      have ha := isSome_find?_of_valueOf?_eq_some hxs
      rw [valueOf?_of_push_eq_ok hpush ha he (ih hxs) hcall, List.append_assoc, List.map_append]
      rfl
  | next _ _ ih₁ ih₂ => rw [ih₂ (ih₁ hxs), List.append_assoc, List.map_append]

/-! ## Indexing -/

section
variable {m m₁ m₂ : Machine} {callee : String} {e₁ e₂ : Expr} {xs : List Value} {w : Value}
  {line : Nat} {k : Int} (hindex : m.MeansNative callee ⟨"index", .exactly 2, .index⟩)
  (h₁ : runExpr e₁ m = .ok (some (.array xs)) m₁) (h₂ : runExpr e₂ m₁ = .ok (some w) m₂)
  (hk : w.asInteger line = .ok k)
include hindex h₁ h₂ hk

/-- An element is taken at an integer from the array that the first argument was. -/
theorem runExpr_index :
    runExpr (.call callee [e₁, e₂] line) m =
      (some <$> Run.lift (Native.elementAt line xs k)) m₂ := by
  obtain ⟨identity, hcallee⟩ := hindex
  rw [runExpr_of_native hcallee (.next h₁ (.next h₂ (.none m₂))) rfl line]
  change (Run.lift (w.asInteger line) >>= fun i =>
    some <$> Run.lift (Native.elementAt line xs i)) m₂ = _
  rw [hk]
  rfl

theorem runExpr_index_of_lt
    {p : Nat} (hp : k = p) {x : Value} (hx : xs[p]? = some x) :
    runExpr (.call callee [e₁, e₂] line) m = .ok (some x) m₂ := by
  rw [runExpr_index hindex h₁ h₂ hk, Native.elementAt, hp, if_pos (Int.natCast_nonneg p),
    Int.toNat_natCast, hx]
  rfl

theorem runExpr_index_of_outside
    (hout : k < 0 ∨ xs.length ≤ k) :
    runExpr (.call callee [e₁, e₂] line) m =
      .error ⟨.indexOutOfBounds xs.length k, line⟩ m₂ := by
  have hnone : (if 0 ≤ k then xs[k.toNat]? else none) = none := by
    split
    · rw [List.getElem?_eq_none]
      omega
    · rfl
  rw [runExpr_index hindex h₁ h₂ hk, Native.elementAt, hnone]
  rfl

end

/-- Appending and indexing obey the laws of sequences.  An append is made to the record that its
name means in the machine that the item has left.  If this is an array, the value of the item,
converted, is its new last element and nothing else is different; if not, the call fails in this
machine.  A text that is a numeral, blanks around it aside, is converted to the double nearest to it
if this is finite; other texts and all other values stay as they are.  Indexing gives the element at
the position that the second argument is as an integer, and fails with length and position if there
is none.  Hence, after any items were appended to an array under its name, indexing finds the old
elements where they were and the items, converted, behind them in their order. -/
theorem appends_and_indexing_obey_sequence_laws
    (m : Machine) :
    (∀ callee a e v m' l line, m.MeansNative callee ⟨"push", .exactly 2, .push⟩ →
      (m.scopes.find? a).isSome → runExpr e m = .ok (some v) m' →
      ∃ place r, m'.scopes.locate? a = some place ∧ m'.scopes.recordAt? a place = some r ∧
        (∀ xs, r.value = .array xs → ∃ m'',
          runExpr (.call callee [.name a l, e] line) m = .ok none m'' ∧
            m''.DiffersAt m' a place { r with value := .array (xs ++ [Native.coerce v]) }) ∧
        (r.value.kind ≠ .arr →
          runExpr (.call callee [.name a l, e] line) m = .error ⟨.expectedArray, line⟩ m')) ∧
    (∀ s n, Decimal.IsNumeral s n → n.toFloat.isFinite = true →
      Native.coerce (.text s) = .number n.toFloat) ∧
    (∀ s, (∀ n, Decimal.IsNumeral s n → n.toFloat.isFinite = false) →
      Native.coerce (.text s) = .text s) ∧
    (∀ v : Value, v.kind ≠ .str → Native.coerce v = v) ∧
    (∀ callee e₁ e₂ xs w k line m₁ m₂, m.MeansNative callee ⟨"index", .exactly 2, .index⟩ →
      runExpr e₁ m = .ok (some (.array xs)) m₁ → runExpr e₂ m₁ = .ok (some w) m₂ →
      w.asInteger line = .ok k →
      (∀ (p : Nat) (_ : p < xs.length), k = p →
        runExpr (.call callee [e₁, e₂] line) m = .ok (some xs[p]) m₂) ∧
      (k < 0 ∨ xs.length ≤ k →
        runExpr (.call callee [e₁, e₂] line) m =
          .error ⟨.indexOutOfBounds xs.length k, line⟩ m₂)) ∧
    ∀ a xs vs m', m.valueOf? a = some (.array xs) → Pushes a m vs m' →
      ∀ callee e w k l line m'', m'.MeansNative callee ⟨"index", .exactly 2, .index⟩ →
        runExpr e m' = .ok (some w) m'' → w.asInteger line = .ok k →
        (∀ (p : Nat) (_ : p < xs.length), k = p →
          runExpr (.call callee [.name a l, e] line) m' = .ok (some xs[p]) m'') ∧
        (∀ (i : Nat) (_ : i < vs.length), k = xs.length + i →
          runExpr (.call callee [.name a l, e] line) m' =
            .ok (some (Native.coerce vs[i])) m'') ∧
        (k < 0 ∨ xs.length + vs.length ≤ k →
          runExpr (.call callee [.name a l, e] line) m' =
            .error ⟨.indexOutOfBounds (xs.length + vs.length) k, line⟩ m'') := by
  refine ⟨?_, fun _ _ => Native.coerce_of_isNumeral, fun _ => Native.coerce_of_not_isNumeral,
    fun _ => Native.coerce_of_kind_ne, ?_, ?_⟩
  · intro callee a e v m' l line hpush ha he
    exact exists_record_of_push hpush ha he l line
  · intro callee e₁ e₂ xs w k line m₁ m₂ hindex h₁ h₂ hk
    refine ⟨fun p hp hposition => ?_, runExpr_index_of_outside hindex h₁ h₂ hk⟩
    exact runExpr_index_of_lt hindex h₁ h₂ hk hposition (List.getElem?_eq_getElem hp)
  · intro a xs vs m' hxs hpushes callee e w k l line m'' hindex he hk
    have harray := runExpr_name (hpushes.valueOf?_eq hxs) l
    refine ⟨fun p hp hposition => ?_, fun i hi hposition => ?_, fun hout => ?_⟩
    · refine runExpr_index_of_lt hindex harray he hk hposition ?_
      rw [List.getElem?_append_left hp, List.getElem?_eq_getElem hp]
    · refine runExpr_index_of_lt hindex harray he hk (p := xs.length + i) hposition ?_
      rw [List.getElem?_append_right (Nat.le_add_right _ _), Nat.add_sub_cancel_left,
        List.getElem?_map, List.getElem?_eq_getElem hi, Option.map_some]
    · have hlength : (xs ++ vs.map Native.coerce).length = xs.length + vs.length := by
        rw [List.length_append, List.length_map]
      rw [runExpr_index_of_outside hindex harray he hk (by rw [hlength]; exact hout), hlength]

/-- A function `f` appends `false` to the array `a` and gives the text of a number.  When what it
gives is appended to `a` in turn, this number stands behind `false`; the array `b`, which had the
same element as `a`, stays as it is.  To the text `t` nothing can be appended, though `f` has been
run.  The word for an infinity is no numeral. -/
theorem item_that_appends_comes_first :
    let f : UserFunction := ⟨"f", [],
      [.expression (.call "push" [.name "a" 1, .literal (.boolean false) 1] 1) 1,
        .returns (.literal (.text " 2 ") 2) 2], 1⟩
    let holding (elements : List Value) : Machine :=
      let records : Records := .insert (.insert (.insert (.insert (.insert (.insert .empty
        ⟨.fn, "push", .function 0 (.native ⟨"push", .exactly 2, .push⟩)⟩)
        ⟨.fn, "index", .function 1 (.native ⟨"index", .exactly 2, .index⟩)⟩)
        ⟨.fn, "f", .function 2 (.user f)⟩) ⟨.arr, "a", .array elements⟩)
        ⟨.arr, "b", .array [.boolean true]⟩) ⟨.str, "t", .text "x"⟩
      ⟨⟨#[⟨.global, none, Scopes.top, records⟩], Scopes.top⟩, ⟨true, #[]⟩, 0, 3⟩
    let m := holding [.boolean true]
    let m' := holding [.boolean true, .boolean false]
    let two : Value := .number (.ofBits 0x4000000000000000)
    let m'' := holding [.boolean true, .boolean false, two]
    let item : Expr := .call "f" [] 3
    let position (bits : UInt64) : Expr := .literal (.number (.ofBits bits)) 4
    runExpr item m = .ok (some (.text " 2 ")) m' ∧
      runExpr (.call "push" [.name "t" 3, item] 3) m = .error ⟨.expectedArray, 3⟩ m' ∧
      runExpr (.call "push" [.name "a" 3, item] 3) m = .ok none m'' ∧
      m''.DiffersAt m' "a" Scopes.top
        ⟨.arr, "a", .array [.boolean true, .boolean false, two]⟩ ∧
      runExpr (.call "index" [.name "b" 4, position 0x3ff0000000000000] 4) m =
        .error ⟨.indexOutOfBounds 1 1, 4⟩ m ∧
      runExpr (.call "index" [.name "a" 4, position 0x4000000000000000] 4) m'' =
        .ok (some two) m'' ∧
      Native.coerce (.text "inf") = .text "inf" := by
  have hone : (Value.number (.ofBits 0x3ff0000000000000)).asInteger 4 = .ok 1 := by
    rfl
  have htwo : (Value.number (.ofBits 0x4000000000000000)).asInteger 4 = .ok 2 := by
    rfl
  intro f holding m m' two m'' item position
  obtain ⟨happends, hcoerce, hkept, -, hindexes, hafter⟩ :=
    appends_and_indexing_obey_sequence_laws m
  have hnumber : Native.coerce (.text " 2 ") = two := by
    have hblank : ∀ c ∈ [' '], Text.isBlank c = true := List.forall_mem_singleton.mpr rfl
    have hdigit : ∀ c ∈ ['2'], Pattern.Digit c := List.forall_mem_singleton.mpr (by decide)
    have hnumeral : Decimal.NumeralText ['2'] ⟨false, ['2'], [], 0⟩ :=
      .parts .absent hdigit .absent (.inl (List.cons_ne_nil _ _)) .absent
    exact hcoerce " 2 " _ ⟨_, _, _, rfl, hblank, hnumeral, hblank⟩ rfl
  have hposition (bits : UInt64) (n : Machine) :
      runExpr (position bits) n = .ok (some (.number (.ofBits bits))) n := rfl
  have hpush (elements : List Value) :
      (holding elements).MeansNative "push" ⟨"push", .exactly 2, .push⟩ :=
    ⟨0, by with_unfolding_all rfl⟩
  have hindex (elements : List Value) :
      (holding elements).MeansNative "index" ⟨"index", .exactly 2, .index⟩ :=
    ⟨1, by with_unfolding_all rfl⟩
  have hfound : (m.scopes.find? "a").isSome := by
    with_unfolding_all rfl
  have ha : m.valueOf? "a" = some (.array [.boolean true]) := by
    with_unfolding_all rfl
  have hb : m.valueOf? "b" = some (.array [.boolean true]) := by
    with_unfolding_all rfl
  have hitem : runExpr item m = .ok (some (.text " 2 ")) m' := by
    with_unfolding_all rfl
  have hcall : runExpr (.call "push" [.name "a" 3, item] 3) m = .ok none m'' := by
    have hassign (elements others : List Value) :
        (holding elements).mapScopes (·.assign "a" (.array others)) = holding others := by
      with_unfolding_all rfl
    have ha' : m'.valueOf? "a" = some (.array [.boolean true, .boolean false]) := by
      with_unfolding_all rfl
    obtain ⟨old, hcall⟩ := runExpr_push (hpush _) hfound hitem 3 3
    rw [hcall, Native.push_named, ha', hnumber]
    exact congrArg _ (hassign _ _)
  -- Inside the call of `f` the item is appended; entering and leaving it keeps what `a` means.
  have hinside : Pushes "a" m [.boolean false] m' := by
    have hcallee : (m.enterCall []).MeansNative "push" ⟨"push", .exactly 2, .push⟩ :=
      ⟨0, by with_unfolding_all rfl⟩
    have hliteral : runExpr (.literal (.boolean false) 1) (m.enterCall []) =
        .ok (some (.boolean false)) (m.enterCall []) := rfl
    have happend : runExpr (.call "push" [.name "a" 1, .literal (.boolean false) 1] 1)
        (m.enterCall []) = .ok none (m'.enterCall []) := by
      with_unfolding_all rfl
    have henter : Pushes "a" m [] (m.enterCall []) := .quiet (by with_unfolding_all rfl)
    have hleave : Pushes "a" (m'.enterCall []) [] m' := .quiet (by with_unfolding_all rfl)
    exact henter.next ((Pushes.push hcallee (.quiet rfl) hliteral happend).next hleave)
  refine ⟨hitem, ?_, hcall, ?_, ?_, ?_, ?_⟩
  · obtain ⟨place, r, hplace, hr, -, hfails⟩ :=
      happends "push" "t" item _ m' 3 3 (hpush _) (by with_unfolding_all rfl) hitem
    cases hplace.symm.trans (show _ = some Scopes.top by with_unfolding_all rfl)
    cases hr.symm.trans (show _ = some ⟨.str, "t", .text "x"⟩ by with_unfolding_all rfl)
    exact hfails (by decide)
  · obtain ⟨place, r, hplace, hr, hsucceeds, -⟩ :=
      happends "push" "a" item _ m' 3 3 (hpush _) hfound hitem
    cases hplace.symm.trans (show _ = some Scopes.top by with_unfolding_all rfl)
    cases hr.symm.trans
      (show _ = some ⟨.arr, "a", .array [.boolean true, .boolean false]⟩ by with_unfolding_all rfl)
    obtain ⟨n, hn, hdiffers⟩ := hsucceeds _ rfl
    cases hn.symm.trans hcall
    exact hdiffers
  · have houtside := (hindexes "index" _ _ _ _ 1 4 m m (hindex _) (runExpr_name hb 4)
      (hposition _ m) hone).2
    exact houtside (.inr (by decide))
  · have hpushes : Pushes "a" m [.boolean false, .text " 2 "] m'' :=
      .push (hpush _) hinside hitem hcall
    have hitems := (hafter "a" _ _ m'' ha hpushes "index" _ _ 2 4 4 m'' (hindex _)
      (hposition _ m'') htwo).2.1
    rw [← hnumber]
    exact hitems 1 (by decide) rfl
  · refine hkept "inf" fun n hn => ?_
    have hnone : Decimal.readNumeral? (Text.trimBlanks "inf".toList) = none := rfl
    rw [Decimal.isNumeral_iff, hnone] at hn
    cases hn

end Machine
end ColonScript
