import Mathlib.Data.List.Forall2
import Mathlib.Data.Option.Basic
import ArrayHost.Wasm.Interpreter
import ArrayHost.Wasm.Validation

/-!
# The types of operands

`Code.type?` goes through code with the types of the operands, as far as they are known. Code that
is reached has operands whose types are all known, with nothing open below them
(`Operands.ofTypes`). On such operands each check says what the first ones are (`pop?_ofTypes`,
`popAll?_ofTypes`), so each form of code has an inversion that says what it takes and what it leaves
(`Code.Yields`), and an instruction that fits the types of its registers can be carried out
(`Instr.leaves_eval?`).
-/

namespace ArrayHost.Wasm

/-- A value is of a type. The null reference is of each type of references. -/
inductive Value.HasType : Value → ValType → Prop where
  | i32 (x : Int32) : HasType (.i32 x) .i32
  | i64 (x : Int64) : HasType (.i64 x) .i64
  | f32 (bits : UInt32) : HasType (.f32 bits) .f32
  | f64 (bits : UInt64) : HasType (.f64 bits) .f64
  | v128 (bits : BitVec 128) : HasType (.v128 bits) .v128
  | null {t : ValType} (ht : t.isReference = true) : HasType .null t

/-- Values are of the given types, each of its own. -/
abbrev HaveTypes (vs : List Value) (ts : List ValType) : Prop := List.Forall₂ Value.HasType vs ts

/-- A local variable starts with a value of its type. -/
theorem ValType.hasType_zero (t : ValType) : t.zero.HasType t := by
  cases t <;> constructor
  all_goals rfl

/-- Local variables start with values of their types. -/
theorem haveTypes_zero (ts : List ValType) : HaveTypes (ts.map ValType.zero) ts := by
  rw [HaveTypes, List.forall₂_map_left_iff, List.forall₂_same]
  exact fun t _ => t.hasType_zero

/-- Operands of which the top one is of the type of 32-bit integers have one on top. -/
theorem HaveTypes.of_i32 {vs : List Value} {ts : List ValType} (h : HaveTypes vs (.i32 :: ts)) :
    ∃ x rest, vs = .i32 x :: rest ∧ HaveTypes rest ts := by
  cases h with
  | cons hv hrest =>
    cases hv with
    | i32 x => exact ⟨x, _, rfl, hrest⟩
    | null ht => cases ht

/-- The value of a local variable is of the type of the variable. -/
theorem HaveTypes.exists_getElem? {vs : List Value} {ts : List ValType} (h : HaveTypes vs ts)
    {i : ℕ} {t : ValType} (ht : ts[i]? = some t) : ∃ v, vs[i]? = some v ∧ v.HasType t := by
  induction h generalizing i with
  | nil => cases ht
  | @cons v _ _ _ hv _ ih =>
    cases i with
    | zero =>
      obtain rfl := Option.some.inj ht
      exact ⟨v, rfl, hv⟩
    | succ i => exact ih ht

/-- A local variable may be set to a value of its type. -/
theorem HaveTypes.set {vs : List Value} {ts : List ValType} (h : HaveTypes vs ts) {i : ℕ}
    {t : ValType} (ht : ts[i]? = some t) {v : Value} (hv : v.HasType t) :
    HaveTypes (vs.set i v) ts := by
  induction h generalizing i with
  | nil => cases ht
  | cons hfirst hrest ih =>
    cases i with
    | zero =>
      obtain rfl := Option.some.inj ht
      exact .cons hv hrest
    | succ i => exact .cons hfirst (ih ht)

namespace Operands

/-- Operands whose types are all known, with nothing open below them, the top one first. -/
def ofTypes (ts : List ValType) : Operands := ⟨ts.map some, false⟩

variable {ts types : List ValType} {t : ValType} {o : Operands}

/-- Operands are pushed on known ones. -/
theorem push_ofTypes (ts types : List ValType) :
    (ofTypes ts).push types = ofTypes (types.reverse ++ ts) := by
  simp [push, ofTypes]

/-- Of known operands, the top one is popped. -/
theorem popAny?_ofTypes {t? : Option ValType} : (ofTypes ts).popAny? = some (t?, o) ↔
    ∃ t rest, ts = t :: rest ∧ t? = some t ∧ o = ofTypes rest := by
  cases ts with
  | nil => simp [popAny?, ofTypes]
  | cons t rest => simp [popAny?, ofTypes, eq_comm]

/-- An operand of a type is popped when the top one is of this type. -/
theorem pop?_ofTypes :
    (ofTypes ts).pop? t = some o ↔ ∃ rest, ts = t :: rest ∧ o = ofTypes rest := by
  simp only [pop?, Option.bind_eq_some_iff, Prod.exists, popAny?_ofTypes]
  constructor
  · rintro ⟨_, _, ⟨u, rest, rfl, rfl, rfl⟩, hpop⟩
    simp only [Option.getD_some, Option.ite_none_right_eq_some, Option.some.injEq] at hpop
    exact ⟨rest, by rw [hpop.1], hpop.2.symm⟩
  · rintro ⟨rest, rfl, rfl⟩
    exact ⟨_, _, ⟨t, rest, rfl, rfl, rfl⟩, by simp⟩

/-- Operands of some types are popped when the top ones are of these types. -/
theorem popAll?_ofTypes : (ofTypes ts).popAll? types = some o ↔
    ∃ rest, ts = types.reverse ++ rest ∧ o = ofTypes rest := by
  unfold popAll?
  induction types.reverse generalizing ts with
  | nil => simp [eq_comm]
  | cons t types ih =>
    simp only [List.foldlM_cons, Option.bind_eq_bind, Option.bind_eq_some_iff, pop?_ofTypes]
    constructor
    · rintro ⟨_, ⟨rest, rfl, rfl⟩, hpop⟩
      obtain ⟨rest', rfl, rfl⟩ := ih.1 hpop
      exact ⟨rest', rfl, rfl⟩
    · rintro ⟨rest, rfl, rfl⟩
      exact ⟨_, ⟨_, rfl, rfl⟩, ih.2 ⟨rest, rfl, rfl⟩⟩

/-- Known operands are exactly the results that they yield. -/
theorem yields_ofTypes : (ofTypes ts).yields types = true ↔ ts = types.reverse := by
  unfold yields
  cases hpop : (ofTypes ts).popAll? types with
  | none =>
    refine iff_of_false (by simp) fun h => ?_
    simp [popAll?_ofTypes.2 ⟨[], by simpa using h, rfl⟩] at hpop
  | some o =>
    obtain ⟨rest, rfl, rfl⟩ := popAll?_ofTypes.1 hpop
    simp [ofTypes]

end Operands

open Operands (ofTypes)

/-! ## Instructions -/

/-- What an instruction computes on is of the given types. -/
structure Registers.Fits (scope : Scope) (ts : List ValType) (r : Registers) : Prop where
  /-- The parameters and locals. -/
  locals : HaveTypes r.locals.toList scope.locals
  /-- The operands. -/
  stack : HaveTypes r.stack ts
  /-- There are as many globals as there should be. -/
  globals : r.globals.size = scope.globals

/-- What an instruction leads to leaves the given operands, if it does not trap. -/
inductive Registers.Leaves (scope : Scope) : Operands → Option (Except Trap Registers) → Prop where
  /-- The instruction is carried out. -/
  | ok {ts : List ValType} {r : Registers} (hr : r.Fits scope ts) :
      Leaves scope (ofTypes ts) (some (.ok r))
  /-- The instruction traps. -/
  | trap (ts : List ValType) (trap : Trap) : Leaves scope (ofTypes ts) (some (.error trap))

/-- An instruction can be carried out when the operands are of the types that it takes, and leaves
operands of the types that typing says. -/
theorem Instr.leaves_eval? {scope : Scope} {ts : List ValType} {o : Operands} {i : Instr ℕ}
    {r : Registers} (htype : i.type? scope (ofTypes ts) = some o) (hr : r.Fits scope ts) :
    Registers.Leaves scope o (i.eval? r) := by
  obtain ⟨locals, stack, globals⟩ := r
  have hlocals : HaveTypes locals.toList scope.locals := hr.locals
  have hstack : HaveTypes stack ts := hr.stack
  have hglobals : globals.size = scope.globals := hr.globals
  cases i with
  | const32 n =>
    obtain ⟨-, rfl⟩ : _ ∧ (ofTypes ts).push [.i32] = o := by simpa [type?] using htype
    rw [Operands.push_ofTypes]
    exact .ok ⟨hlocals, .cons (.i32 _) hstack, hglobals⟩
  | const64 n =>
    obtain ⟨-, rfl⟩ : _ ∧ (ofTypes ts).push [.i64] = o := by simpa [type?] using htype
    rw [Operands.push_ofTypes]
    exact .ok ⟨hlocals, .cons (.i64 _) hstack, hglobals⟩
  | localGet j =>
    obtain ⟨t, ht, rfl⟩ := Option.map_eq_some_iff.1 htype
    obtain ⟨v, hv, hvt⟩ := hlocals.exists_getElem? ht
    rw [Array.getElem?_toList] at hv
    simp only [eval?, hv, Option.map_some, Operands.push_ofTypes]
    exact .ok ⟨hlocals, .cons hvt hstack, hglobals⟩
  | localSet j =>
    obtain ⟨t, ht, hpop⟩ := Option.bind_eq_some_iff.1 htype
    obtain ⟨rest, rfl, rfl⟩ := Operands.pop?_ofTypes.1 hpop
    cases hstack with
    | cons hv hstack =>
      refine .ok ⟨?_, hstack, hglobals⟩
      rw [Array.toList_setIfInBounds]
      exact hlocals.set ht hv
  | localTee j =>
    obtain ⟨t, ht, hpush⟩ := Option.bind_eq_some_iff.1 htype
    obtain ⟨o', hpop, rfl⟩ := Option.map_eq_some_iff.1 hpush
    obtain ⟨rest, rfl, rfl⟩ := Operands.pop?_ofTypes.1 hpop
    rw [Operands.push_ofTypes]
    cases hstack with
    | cons hv hstack =>
      refine .ok ⟨?_, .cons hv hstack, hglobals⟩
      rw [Array.toList_setIfInBounds]
      exact hlocals.set ht hv
  | globalGet g =>
    obtain ⟨hg, rfl⟩ : g < scope.globals ∧ (ofTypes ts).push [.i32] = o := by
      simpa [type?] using htype
    have hsome := Array.getElem?_eq_getElem (Nat.lt_of_lt_of_eq hg hglobals.symm)
    simp only [eval?, hsome, Option.map_some, Operands.push_ofTypes]
    exact .ok ⟨hlocals, .cons (.i32 _) hstack, hglobals⟩
  | globalSet g =>
    obtain ⟨-, hpop⟩ : g < scope.globals ∧ (ofTypes ts).pop? .i32 = some o := by
      simpa [type?] using htype
    obtain ⟨rest, rfl, rfl⟩ := Operands.pop?_ofTypes.1 hpop
    obtain ⟨x, stack, rfl, hrest⟩ := hstack.of_i32
    exact .ok ⟨hlocals, hrest, Array.size_setIfInBounds.trans hglobals⟩
  | drop =>
    obtain ⟨⟨t?, o'⟩, hpop, rfl⟩ := Option.map_eq_some_iff.1 htype
    obtain ⟨t, rest, rfl, rfl, rfl⟩ := Operands.popAny?_ofTypes.1 hpop
    cases hstack with
    | cons _ hstack => exact .ok ⟨hlocals, hstack, hglobals⟩
  | select =>
    simp only [type?, Option.bind_eq_bind, Option.bind_eq_some_iff, Prod.exists,
      Operands.pop?_ofTypes] at htype
    obtain ⟨_, ⟨_, rfl, rfl⟩, _, _, hfirst, _, _, hsecond, hboth⟩ := htype
    obtain ⟨t, _, rfl, rfl, rfl⟩ := Operands.popAny?_ofTypes.1 hfirst
    obtain ⟨u, rest, rfl, rfl, rfl⟩ := Operands.popAny?_ofTypes.1 hsecond
    -- The two operands are of one type, since both types are known.
    obtain ⟨⟨rfl, -⟩, rfl⟩ : (u = t ∧ _) ∧ ofTypes (t :: rest) = o := by
      simpa [ofTypes] using hboth
    obtain ⟨c, stack, rfl, hoperands⟩ := hstack.of_i32
    cases hoperands with
    | cons hv hrest =>
      cases hrest with
      | cons hu hrest =>
        refine .ok ⟨hlocals, .cons ?_ hrest, hglobals⟩
        split
        · exact hu
        · exact hv
  | nop =>
    obtain rfl := Option.some.inj htype
    exact .ok ⟨hlocals, hstack, hglobals⟩
  | eqz =>
    obtain ⟨o', hpop, rfl⟩ := Option.map_eq_some_iff.1 htype
    obtain ⟨rest, rfl, rfl⟩ := Operands.pop?_ofTypes.1 hpop
    rw [Operands.push_ofTypes]
    obtain ⟨x, stack, rfl, hrest⟩ := hstack.of_i32
    exact .ok ⟨hlocals, .cons (.i32 _) hrest, hglobals⟩
  | binary op =>
    obtain ⟨o', hpop, rfl⟩ := Option.map_eq_some_iff.1 htype
    obtain ⟨rest, rfl, rfl⟩ := Operands.popAll?_ofTypes.1 hpop
    rw [Operands.push_ofTypes]
    obtain ⟨y, stack, rfl, hoperands⟩ := hstack.of_i32
    obtain ⟨x, stack, rfl, hrest⟩ := hoperands.of_i32
    simp only [eval?]
    cases op.eval x y with
    | error trap => exact .trap _ trap
    | ok z => exact .ok ⟨hlocals, .cons (.i32 z) hrest, hglobals⟩

/-! ## Code -/

/-- Code that starts with operands of the given types is well typed, and it ends with the given
results. -/
def Code.Yields (scope : Scope) (labels : List (List ValType)) (ts results : List ValType)
    (code : Code Callee ℕ) : Prop :=
  ∃ o, code.type? scope labels (ofTypes ts) = some o ∧ o.yields results = true

namespace Code

variable {scope : Scope} {labels : List (List ValType)} {ts results : List ValType}
  {next : Code Callee ℕ}

/-- At its end, the operands are the results. -/
theorem yields_done : (done : Code Callee ℕ).Yields scope labels ts results ↔
    ts = results.reverse := by
  simp [Yields, type?, Operands.yields_ofTypes]

/-- An instruction is followed by code that is typed on what it leaves. -/
theorem Yields.of_instr {i : Instr ℕ} (h : (instr i next).Yields scope labels ts results) :
    ∃ o, i.type? scope (ofTypes ts) = some o ∧
      ∀ rest, o = ofTypes rest → next.Yields scope labels rest results := by
  obtain ⟨o, htype, hyields⟩ := h
  obtain ⟨o', hi, hnext⟩ := Option.bind_eq_some_iff.1 htype
  refine ⟨o', hi, fun rest hrest => ?_⟩
  rw [hrest] at hnext
  exact ⟨o, hnext, hyields⟩

/-- A function takes its arguments from the operands, and its results are put there. -/
theorem Yields.of_call {f : Callee} (h : (call f next).Yields scope labels ts results) :
    ∃ type rest, scope.funcType? f = some type ∧ ts = type.params.reverse ++ rest ∧
      next.Yields scope labels (type.results.reverse ++ rest) results := by
  obtain ⟨o, htype, hyields⟩ := h
  simp only [type?, Option.bind_eq_bind, Option.bind_eq_some_iff, Operands.popAll?_ofTypes] at htype
  obtain ⟨type, hf, _, ⟨rest, rfl, rfl⟩, hnext⟩ := htype
  rw [Operands.push_ofTypes] at hnext
  exact ⟨type, rest, hf, rfl, o, hnext, hyields⟩

/-- A branch takes the operands of its label. -/
theorem Yields.of_br {label : ℕ} (h : (br label next).Yields scope labels ts results) :
    ∃ types rest, labels[label]? = some types ∧ ts = types.reverse ++ rest := by
  obtain ⟨o, htype, -⟩ := h
  simp only [type?, Option.bind_eq_bind, Option.bind_eq_some_iff, Operands.popAll?_ofTypes] at htype
  obtain ⟨types, hlabel, _, ⟨rest, rfl, -⟩, -⟩ := htype
  exact ⟨types, rest, hlabel, rfl⟩

/-- A conditional branch takes a condition and, if it is made, the operands of its label. -/
theorem Yields.of_brIf {label : ℕ} (h : (brIf label next).Yields scope labels ts results) :
    ∃ types rest, labels[label]? = some types ∧ ts = .i32 :: (types.reverse ++ rest) ∧
      next.Yields scope labels (types.reverse ++ rest) results := by
  obtain ⟨o, htype, hyields⟩ := h
  simp only [type?, Option.bind_eq_bind, Option.bind_eq_some_iff, Operands.pop?_ofTypes] at htype
  obtain ⟨_, ⟨_, rfl, rfl⟩, types, hlabel, o', hpop, hnext⟩ := htype
  obtain ⟨rest, rfl, rfl⟩ := Operands.popAll?_ofTypes.1 hpop
  rw [Operands.push_ofTypes] at hnext
  exact ⟨types, rest, hlabel, rfl, o, hnext, hyields⟩

/-- Code that leaves the function takes the results of the function. -/
theorem Yields.of_leave (h : (leave next).Yields scope labels ts results) :
    ∃ rest, ts = scope.results.reverse ++ rest := by
  obtain ⟨o, htype, -⟩ := h
  simp only [type?, Option.bind_eq_bind, Option.bind_eq_some_iff, Operands.popAll?_ofTypes] at htype
  obtain ⟨_, ⟨rest, rfl, -⟩, -⟩ := htype
  exact ⟨rest, rfl⟩

/-- The code of a block leaves nothing, and its label takes nothing. -/
theorem Yields.of_block {body : Code Callee ℕ}
    (h : (block body next).Yields scope labels ts results) :
    body.Yields scope ([] :: labels) [] [] ∧ next.Yields scope labels ts results := by
  obtain ⟨o, htype, hyields⟩ := h
  simp only [type?, Option.bind_eq_bind, Option.bind_eq_some_iff, Option.guard_eq_some'] at htype
  obtain ⟨o', hbody, _, hnone, hnext⟩ := htype
  exact ⟨⟨o', hbody, hnone⟩, o, hnext, hyields⟩

/-- A loop is typed as a block is. -/
theorem Yields.of_loop {body : Code Callee ℕ}
    (h : (loop body next).Yields scope labels ts results) :
    body.Yields scope ([] :: labels) [] [] ∧ next.Yields scope labels ts results :=
  of_block h

/-- A conditional takes a condition, and both its branches leave its results. -/
theorem Yields.of_cond {types : List ValType} {yes no : Code Callee ℕ}
    (h : (cond types yes no next).Yields scope labels ts results) :
    ∃ rest, ts = .i32 :: rest ∧ yes.Yields scope (types :: labels) [] types ∧
      no.Yields scope (types :: labels) [] types ∧
      next.Yields scope labels (types.reverse ++ rest) results := by
  obtain ⟨o, htype, hyields⟩ := h
  simp only [type?, Option.bind_eq_bind, Option.bind_eq_some_iff, Option.guard_eq_some',
    Operands.pop?_ofTypes] at htype
  obtain ⟨_, ⟨rest, rfl, rfl⟩, o₁, hyes, _, hyes', o₂, hno, _, hno', hnext⟩ := htype
  rw [Operands.push_ofTypes] at hnext
  exact ⟨rest, rfl, ⟨o₁, hyes, hyes'⟩, ⟨o₂, hno, hno'⟩, o, hnext, hyields⟩

end Code

/-- The code of a valid function leaves the results of the function. -/
theorem Func.yields_body {m : Module} {f : Func} (hf : f.isValid m = true) :
    f.body.Yields (m.scope f) [f.type.results] [] f.type.results := by
  unfold isValid at hf
  split at hf
  · next o ho => exact ⟨o, ho, hf⟩
  · cases hf

end ArrayHost.Wasm
