import ArrayHost.Proofs.Budgets
import ArrayHost.Proofs.Linking
import ArrayHost.Proofs.OperandTypes
import ArrayHost.Proofs.Progress

/-!
# Type safety

The interpreter is a sound machine (`interpreter_sound`): a step from a typed state is not stuck and
leads to a typed state. A state is typed when its code is well typed on the operands that it has,
and each frame of its control stack takes what the code before it leaves (`Frames`). Each form of
code is one case of `safe_step`; to come back to a frame, to leave a function, to branch and to
enter a function are a lemma each.
-/

namespace ArrayHost

/-! ## What host functions take and answer -/

/-- The types of the results of a call. -/
def Call.results : Call → List Wasm.ValType
  | .set _ _ _ => []
  | _ => [.i32]

namespace Wasm

/-- An answer is of the types of the results of its call. -/
theorem haveTypes_answer {s : Session} {c : Call} {answer : Option Int32}
    (h : (s.call c).1 = .ok answer) : HaveTypes (answer.toList.map Value.i32) c.results := by
  -- A call answers with what it finds, if it finds something.
  have hfound {α : Type} {f : α → Option Int32} {r : Except Fatal.Kind α × Session} {c : Call}
      (hcall : s.attempt c = Session.attempt.answer f r) (h : (s.call c).1 = .ok answer) :
      ∃ x, answer = f x := by
    obtain ⟨result, t⟩ := r
    simp only [Session.call, hcall, Session.attempt.answer] at h
    cases result with
    | error kind => cases h
    | ok x => exact ⟨x, (Except.ok.inj h).symm⟩
  cases c with
  | prints a =>
    cases harray : s.heap.array a with
    | error e => simp [Session.call, Session.attempt, harray, Except.mapError] at h
    | ok contents =>
      have hcall : s.attempt (.prints a) =
          Session.attempt.answer (fun _ => some 0) (s.writeCodes contents.toList) := by
        simp only [Session.attempt, harray]
      obtain ⟨x, rfl⟩ := hfound hcall h
      exact .cons (.i32 0) .nil
  | set =>
    obtain ⟨x, rfl⟩ := hfound rfl h
    exact .nil
  | printi | printc | println | readi | reads | new | size | add | get =>
    obtain ⟨x, rfl⟩ := hfound rfl h
    exact .cons (.i32 _) .nil

namespace Binding

variable {name : String} {results : List ValType}

/-- Operands of the types of its parameters make a call of a host function that answers what its
type says. -/
def Answers (b : Binding) : Prop :=
  ∀ args, HaveTypes args b.type.params → ∃ c, b.call? args = some c ∧ c.results = b.type.results

theorem answers_nullary {call : Call} (h : call.results = results) :
    (nullary name call results).Answers := by
  intro args hargs
  cases hargs
  exact ⟨call, rfl, h⟩

theorem answers_unary {call : Int32 → Call} (h : ∀ x, (call x).results = results) :
    (unary name call results).Answers := by
  intro args hargs
  obtain ⟨x, rest, rfl, hrest⟩ := hargs.of_i32
  cases hrest
  exact ⟨call x, rfl, h x⟩

theorem answers_binary {call : Int32 → Int32 → Call} (h : ∀ x y, (call x y).results = results) :
    (binary name call results).Answers := by
  intro args hargs
  obtain ⟨x, rest, rfl, hy⟩ := hargs.of_i32
  obtain ⟨y, rest, rfl, hrest⟩ := hy.of_i32
  cases hrest
  exact ⟨call x y, rfl, h x y⟩

theorem answers_ternary {call : Int32 → Int32 → Int32 → Call}
    (h : ∀ x y z, (call x y z).results = results) : (ternary name call results).Answers := by
  intro args hargs
  obtain ⟨x, rest, rfl, hy⟩ := hargs.of_i32
  obtain ⟨y, rest, rfl, hz⟩ := hy.of_i32
  obtain ⟨z, rest, rfl, hrest⟩ := hz.of_i32
  cases hrest
  exact ⟨call x y z, rfl, h x y z⟩

/-- All host functions answer what their types say. -/
theorem answers_of_mem_all : ∀ b ∈ all, b.Answers := by
  simp only [all, List.forall_mem_cons, List.not_mem_nil, false_implies, implies_true, and_true]
  exact ⟨answers_unary fun _ => rfl, answers_unary fun _ => rfl, answers_unary fun _ => rfl,
    answers_nullary rfl, answers_nullary rfl, answers_nullary rfl, answers_unary fun _ => rfl,
    answers_unary fun _ => rfl, answers_binary fun _ _ => rfl, answers_binary fun _ _ => rfl,
    answers_ternary fun _ _ _ => rfl⟩

end Binding

/-- An import that is a function of some type is linked to a host function of this type. -/
theorem Instance.IsValid.exists_binding {inst : Instance} (hinst : inst.IsValid) {i : ℕ}
    {type : FuncType} (htype : inst.module.funcType? (.imported i) = some type) :
    ∃ b, inst.imports[i]? = some b ∧ b.type = type ∧ b.Answers := by
  obtain ⟨himports, hall⟩ := Module.link?_eq_some_iff.1 hinst.linked
  have hi : inst.module.imports[i]? = inst.imports[i]?.map Binding.asImport := by
    rw [← Array.getElem?_toList, himports, List.getElem?_map, Array.getElem?_toList]
  cases hb : inst.imports[i]? with
  | none => simp [Module.funcType?, hi, hb] at htype
  | some b =>
    have hmem : b ∈ inst.imports.toList := Array.mem_toList_iff.2 (Array.mem_of_getElem? hb)
    refine ⟨b, rfl, ?_, Binding.answers_of_mem_all b (hall b hmem)⟩
    simpa [Module.funcType?, hi, hb, Binding.asImport] using htype

/-! ## Typed states -/

namespace Interpreter

/-- The control stack takes what the code before it leaves: `labels` are the operands that a branch
takes to each label of the active function `f`, and `results` is what the code has to leave that
comes next. -/
inductive Frames (m : Module) :
    Func → List (List ValType) → List ValType → List Frame → Prop where
  /-- Nothing is left to come back to. -/
  | bottom (f : Func) (results : List ValType) : Frames m f [] results []
  /-- The code after a block. -/
  | block {f : Func} {labels : List (List ValType)} {types ts results : List ValType}
      {stack : List Value} {next : Code Callee ℕ} {control : List Frame}
      (hrest : Frames m f labels results control) (hstack : HaveTypes stack ts)
      (hnext : next.Yields (m.scope f) labels (types.reverse ++ ts) results) :
      Frames m f (types :: labels) types (.block types.length stack next :: control)
  /-- A loop. -/
  | loop {f : Func} {labels : List (List ValType)} {ts results : List ValType}
      {stack : List Value} {body next : Code Callee ℕ} {control : List Frame}
      (hrest : Frames m f labels results control) (hstack : HaveTypes stack ts)
      (hbody : body.Yields (m.scope f) ([] :: labels) [] [])
      (hnext : next.Yields (m.scope f) labels ts results) :
      Frames m f ([] :: labels) [] (.loop body stack next :: control)
  /-- The code after a call. -/
  | call {f caller : Func} {labels : List (List ValType)} {ts results : List ValType}
      {locals : Array Value} {stack : List Value} {next : Code Callee ℕ} {control : List Frame}
      (hrest : Frames m caller labels results control)
      (hlocals : HaveTypes locals.toList (m.scope caller).locals) (hstack : HaveTypes stack ts)
      (hnext : next.Yields (m.scope caller) labels (f.type.results.reverse ++ ts) results) :
      Frames m f [f.type.results] f.type.results
        (.call f.type.results.length locals stack next :: control)

/-- A store has the globals of the module. -/
def Store.Fits (m : Module) (store : Store) : Prop := store.globals.size = m.globals.size

/-- A state has the locals of the active function, operands of the given types and the globals of
the module. -/
structure State.Fits (m : Module) (f : Func) (ts : List ValType) (s : State) : Prop where
  /-- The locals. -/
  locals : HaveTypes s.locals.toList (m.scope f).locals
  /-- The operands. -/
  stack : HaveTypes s.stack ts
  /-- The globals. -/
  store : s.store.Fits m

/-- The code of a state is well typed on what the state has, and the control stack takes what it
leaves. -/
inductive State.Typed (m : Module) (s : State) : Prop where
  | intro {f : Func} {labels : List (List ValType)} {ts results : List ValType}
      (hs : s.Fits m f ts) (hcontrol : Frames m f labels results s.control)
      (hcode : s.code.Yields (m.scope f) labels ts results)

/-- What comes next is not stuck, and leads to typed states. -/
abbrev Safe (m : Module) (next : Next) : Prop := next.Within (State.Typed m) (Store.Fits m)

variable {m : Module} {f : Func} {labels : List (List ValType)} {types ts results : List ValType}
  {s : State} {control : List Frame}

/-- To come back to a frame is safe when its results are on the operands. -/
theorem safe_resume {frame : Frame} (hs : s.Fits m f (results.reverse ++ ts))
    (hframes : Frames m f labels results (frame :: control)) : Safe m (s.resume frame control) := by
  -- The results are those of the operands that the frame takes.
  have htake := List.forall₂_take_append s.stack results.reverse ts hs.stack
  rw [List.length_reverse] at htake
  cases hframes with
  | block hrest hstack hnext =>
    exact .running (.intro ⟨hs.locals, List.rel_append htake hstack, hs.store⟩ hrest hnext)
  | loop hrest hstack hbody hnext =>
    exact .running (.intro ⟨hs.locals, hstack, hs.store⟩ hrest hnext)
  | call hrest hlocals hstack hnext =>
    exact .running (.intro ⟨hlocals, List.rel_append htake hstack, hs.store⟩ hrest hnext)

/-- To leave a function is safe when its results are on the operands. -/
theorem safe_leave (hs : s.Fits m f (f.type.results.reverse ++ ts))
    (hframes : Frames m f labels results control) : Safe m (s.leave control) := by
  induction control generalizing labels results with
  | nil => exact .halted hs.store
  | cons frame control ih =>
    cases frame with
    | block =>
      cases hframes with
      | block hrest => exact ih hrest
    | loop =>
      cases hframes with
      | loop hrest => exact ih hrest
    | call =>
      cases hframes with
      | call hrest hlocals hstack hnext => exact safe_resume hs (.call hrest hlocals hstack hnext)

variable {inst : Instance}

/-- To start or to repeat a loop is safe. -/
theorem safe_iterate {body next : Code Callee ℕ} {stack : List Value}
    (hlocals : HaveTypes s.locals.toList (m.scope f).locals) (hstore : s.store.Fits m)
    (hstack : HaveTypes stack ts) (hframes : Frames m f labels results control)
    (hbody : body.Yields (m.scope f) ([] :: labels) [] [])
    (hnext : next.Yields (m.scope f) labels ts results) :
    Safe m (s.iterate inst body stack next control) := by
  unfold State.iterate
  split
  · exact .halted hstore
  · exact .running (.intro ⟨hlocals, .nil, hstore⟩ (.loop hframes hstack hbody hnext) hbody)

/-- A branch is safe when what its label takes is on the operands. -/
theorem safe_branch {label : ℕ} (hs : s.Fits m f (types.reverse ++ ts))
    (hframes : Frames m f labels results control) (hlabel : labels[label]? = some types) :
    Safe m (s.branch inst label control) := by
  induction control generalizing labels results label with
  | nil =>
    cases hframes
    cases hlabel
  | cons frame control ih =>
    cases hframes with
    | block hrest hstack hnext =>
      cases label with
      | zero =>
        obtain rfl := Option.some.inj hlabel
        exact safe_resume hs (.block hrest hstack hnext)
      | succ label => exact ih hrest hlabel
    | loop hrest hstack hbody hnext =>
      cases label with
      | zero => exact safe_iterate hs.locals hs.store hstack hrest hbody hnext
      | succ label => exact ih hrest hlabel
    | call hrest hlocals hstack hnext =>
      -- The only label of a function is at its end.
      cases label with
      | zero =>
        obtain rfl := Option.some.inj hlabel
        exact safe_leave hs (.call hrest hlocals hstack hnext)
      | succ label => cases hlabel

/-- The arguments of a call are taken from the operands. -/
theorem haveTypes_arguments {stack : List Value} {params : List ValType}
    (h : HaveTypes stack (params.reverse ++ ts)) :
    HaveTypes (stack.take params.length).reverse params ∧
      HaveTypes (stack.drop params.length) ts := by
  have htake := List.rel_reverse (List.forall₂_take_append stack params.reverse ts h)
  have hdrop := List.forall₂_drop_append stack params.reverse ts h
  rw [List.length_reverse, List.reverse_reverse] at htake
  rw [List.length_reverse] at hdrop
  exact ⟨htake, hdrop⟩

/-- To enter a function is safe when its arguments are of the types of its parameters. -/
theorem safe_enter {callSize : ℕ} {g : Func} {args : List Value} (hg : g.isValid m = true)
    (hargs : HaveTypes args.reverse g.type.params) (hstore : s.store.Fits m)
    (hframes : Frames m g [g.type.results] g.type.results s.control) :
    Safe m (s.enter callSize inst g args) := by
  unfold State.enter
  split
  · exact .halted hstore
  · split
    · exact .halted hstore
    · refine .running (.intro (f := g) ⟨?_, .nil, hstore⟩ hframes (Func.yields_body hg))
      have hlocals := List.rel_append hargs (haveTypes_zero g.locals)
      simpa [Module.scope] using hlocals

/-- To call a host function is safe when its arguments are of the types of its parameters. -/
theorem safe_callHost {b : Binding} {args : List Value} (hb : b.Answers)
    (hargs : HaveTypes args.reverse b.type.params) (hs : s.Fits m f ts)
    (hcontrol : Frames m f labels results s.control)
    (hcode : s.code.Yields (m.scope f) labels (b.type.results.reverse ++ ts) results) :
    Safe m (s.callHost b args) := by
  obtain ⟨c, hc, hresults⟩ := hb args.reverse hargs
  -- There is one result at most.
  have hsingle : b.type.results.reverse = c.results := by
    rw [← hresults]
    cases c <;> rfl
  rw [hsingle] at hcode
  simp only [State.callHost, hc]
  refine .calling hs.store fun session answer hanswer => ?_
  have hstack := List.rel_append (haveTypes_answer hanswer) hs.stack
  exact .intro ⟨hs.locals, hstack, hs.store⟩ hcontrol hcode

/-- To call a function is safe when what it takes is on the operands. -/
theorem safe_call {callSize : ℕ} (hinst : inst.IsValid) {callee : Callee} {type : FuncType}
    (htype : inst.module.funcType? callee = some type)
    (hs : s.Fits inst.module f (type.params.reverse ++ ts))
    (hcontrol : Frames inst.module f labels results s.control)
    (hcode : s.code.Yields (inst.module.scope f) labels (type.results.reverse ++ ts) results) :
    Safe inst.module (s.call callSize inst callee) := by
  obtain ⟨hargs, hrest⟩ := haveTypes_arguments hs.stack
  cases callee with
  | imported i =>
    obtain ⟨b, hb, rfl, hanswers⟩ := hinst.exists_binding htype
    simp only [State.call, hb]
    exact safe_callHost hanswers hargs ⟨hs.locals, hrest, hs.store⟩ hcontrol hcode
  | defined i =>
    obtain ⟨g, hg, rfl⟩ := Option.map_eq_some_iff.1 htype
    have hvalid := (Module.isWellTyped_iff.1 hinst.wellTyped).1 g (Array.mem_of_getElem? hg)
    simp only [State.call, hg]
    exact safe_enter hvalid hargs hs.store (.call hcontrol hs.locals hrest hcode)

/-- A step from a typed state is safe. -/
theorem safe_step {callSize : ℕ} (hinst : inst.IsValid) (hs : s.Typed inst.module) :
    Safe inst.module (step callSize inst s) := by
  obtain @⟨f, labels, ts, results, hs, hcontrol, hcode⟩ := hs
  obtain ⟨code, locals, stack, control, depth, ⟨globals, consumed⟩⟩ := s
  have hlocals : HaveTypes locals.toList (inst.module.scope f).locals := hs.locals
  have hstack : HaveTypes stack ts := hs.stack
  have hstore : globals.size = inst.module.globals.size := hs.store
  cases code with
  | done =>
    obtain rfl := Code.yields_done.1 hcode
    cases control with
    | nil => exact .halted hstore
    | cons frame control =>
      rw [← List.append_nil results.reverse] at hstack
      exact safe_resume ⟨hlocals, hstack, hstore⟩ hcontrol
  | instr i next =>
    obtain ⟨o, htype, hnext⟩ := hcode.of_instr
    have hfits : Registers.Fits (inst.module.scope f) ts ⟨locals, stack, globals⟩ :=
      ⟨hlocals, hstack, hstore⟩
    have hleaves := Instr.leaves_eval? htype hfits
    simp only [step]
    cases heval : i.eval? ⟨locals, stack, globals⟩ with
    | none =>
      rw [heval] at hleaves
      cases hleaves
    | some result =>
      rw [heval] at hleaves
      cases hleaves with
      | trap => exact .halted hstore
      | ok hr => exact .running (.intro ⟨hr.locals, hr.stack, hr.globals⟩ hcontrol (hnext _ rfl))
  | call callee next =>
    obtain ⟨type, rest, htype, rfl, hnext⟩ := hcode.of_call
    exact safe_call hinst htype ⟨hlocals, hstack, hstore⟩ hcontrol hnext
  | br label next =>
    obtain ⟨types, rest, hlabel, rfl⟩ := hcode.of_br
    exact safe_branch ⟨hlocals, hstack, hstore⟩ hcontrol hlabel
  | brIf label next =>
    obtain ⟨types, rest, hlabel, rfl, hnext⟩ := hcode.of_brIf
    obtain ⟨c, stack, rfl, hrest⟩ := hstack.of_i32
    simp only [step]
    split
    · exact safe_branch ⟨hlocals, hrest, hstore⟩ hcontrol hlabel
    · exact .running (.intro ⟨hlocals, hrest, hstore⟩ hcontrol hnext)
  | leave next =>
    obtain ⟨rest, rfl⟩ := hcode.of_leave
    exact safe_leave ⟨hlocals, hstack, hstore⟩ hcontrol
  | unreachable next => exact .halted hstore
  | block body next =>
    obtain ⟨hbody, hnext⟩ := hcode.of_block
    have hframes : Frames inst.module _ ([] :: _) [] (.block 0 stack next :: control) :=
      .block hcontrol hstack hnext
    exact .running (.intro ⟨hlocals, .nil, hstore⟩ hframes hbody)
  | loop body next =>
    obtain ⟨hbody, hnext⟩ := hcode.of_loop
    exact safe_iterate hlocals hstore hstack hcontrol hbody hnext
  | cond types yes no next =>
    obtain ⟨rest, rfl, hyes, hno, hnext⟩ := hcode.of_cond
    obtain ⟨c, stack, rfl, hrest⟩ := hstack.of_i32
    refine .running (.intro ⟨hlocals, .nil, hstore⟩ (.block hcontrol hrest hnext) ?_)
    show (if c ≠ 0 then yes else no).Yields _ _ _ _
    split
    · exact hyes
    · exact hno

/-- What holds of the interpreter while it carries out the code of a valid instance. -/
def invariant (callSize : ℕ) (hinst : inst.IsValid) : (interpreter callSize).Invariant inst where
  OfState := State.Typed inst.module
  OfStore := Store.Fits inst.module
  fresh := rfl
  call := by
    intro callee results store htype hstore
    -- No function is active before the call, and nothing comes after it.
    let f : Func := ⟨⟨[], []⟩, [], .done⟩
    have hs : (State.initial store).Fits inst.module f (List.reverse [] ++ []) :=
      ⟨.nil, .nil, hstore⟩
    exact safe_call hinst htype hs (.bottom f results)
      (Code.yields_done.2 (List.append_nil _))
  step := safe_step hinst

end Interpreter

/-- The interpreter is sound, whatever a call takes of the stack. -/
theorem interpreter_sound (callSize : ℕ) : (interpreter callSize).Sound :=
  fun _ hinst => ⟨Interpreter.invariant callSize hinst⟩

end Wasm

namespace Host

variable {config : Config} {h : Host}

/-- The machine of a host that is only configured is sound and metered. -/
theorem machine_of_ofConfig (hconfig : ofConfig config = .ok h) :
    h.machine.Sound ∧ h.machine.Metered := by
  unfold ofConfig at hconfig
  split at hconfig
  · cases hconfig
  · obtain rfl := Except.ok.inj hconfig
    exact ⟨Wasm.interpreter_sound _, Wasm.interpreter_metered _⟩

/-- Whatever its configuration, a host that loads a module gives no answer to a run of it exactly
when the start function or the entry point is still running. -/
theorem run_of_load_eq_none_iff (hconfig : ofConfig config = .ok h) {source : Option Wasm.Source}
    {m : Wasm.Module} (hload : h.load source = .ok m) (n : ℕ) (s : Session) :
    h.run n m s = none ↔ ∃ phase, ∃ c ∈ h.callIn? n m s phase,
      ∃ state session, c.progress n = .running state session :=
  run_eq_none_iff (machine_of_ofConfig hconfig).1 (isWellTyped_of_load hload)

end Host

end ArrayHost
