import Mathlib.Control.Monad.Basic
import Mathlib.Data.List.Nodup
import ArrayHost.Proofs.BeforeEntry

/-!
# What is loaded and what is linked

The imports of a module are checked twice: by name when the module is loaded, against the interface,
and by type when it is run, against the bindings. The interface is written down a third time as
module text, for those who write modules. The three agree: the bindings are the functions of the
interface, in the same order and with the types that the interface gives them
(`name_type_functions`), and the text declares just these (`preamble_eq`).

So a module is loaded when the interface offers a function under the name of each import, and the
first import for which it does not is reported (`load_eq_error_iff`). It is linked when each import
is a function of the type that the interface gives it (`link?_isSome_iff`). When it is not linked,
nothing is run.
-/

namespace ArrayHost

namespace Wasm

/-- Types in module text, after an opening. Nothing is written for no types. -/
def typesText (opening : String) (types : List ValType) : String :=
  if types = [] then ""
  else opening ++ String.join (types.map fun t => " " ++ t.name) ++ ")"

/-- The declaration in module text of an import that is a function of the given type. -/
def FuncType.declaration (type : FuncType) (module name : String) : String :=
  "(import \"" ++ module ++ "\" \"" ++ name ++ "\" (func $" ++ name ++
    typesText " (param" type.params ++ typesText " (result" type.results ++ "))"

/-- The interface offers a function under the name of an import. -/
def Import.IsOffered (i : Import) : Prop :=
  i.module = Interface.moduleName ∧ ∃ f ∈ Interface.functions, f.name = i.name

/-- An import is a function that the interface offers under its name, with as many 32-bit parameters
as the interface says, and one 32-bit result if it says so and none otherwise. -/
def Import.Fits (i : Import) : Prop :=
  i.module = Interface.moduleName ∧ ∃ f ∈ Interface.functions, f.name = i.name ∧
    i.kind = .func ⟨List.replicate f.params .i32, if f.returnsValue then [.i32] else []⟩

instance (i : Import) : Decidable i.IsOffered :=
  inferInstanceAs (Decidable (_ ∧ ∃ f ∈ Interface.functions, _))

instance (i : Import) : Decidable i.Fits :=
  inferInstanceAs (Decidable (_ ∧ ∃ f ∈ Interface.functions, _ ∧ _))

end Wasm

/-- The declaration of a function that the host offers gives its type. -/
theorem HostFunction.declaration_eq (f : HostFunction) (module : String) :
    f.declaration module = f.type.declaration module f.name := by
  obtain ⟨name, params, returnsValue⟩ := f
  have hparams : (if params = 0 then "" else
      " (param" ++ String.join (List.replicate params " i32") ++ ")") =
      Wasm.typesText " (param" (List.replicate params .i32) := by
    cases params with
    | zero => rfl
    | succ n =>
      have hname : " " ++ Wasm.ValType.name .i32 = " i32" := rfl
      have htypes : List.replicate (n + 1) Wasm.ValType.i32 ≠ [] := by simp
      rw [Wasm.typesText, if_neg htypes, if_neg n.succ_ne_zero, List.map_replicate, hname]
  have hresult : (if returnsValue then " (result i32)" else "") =
      Wasm.typesText " (result" (if returnsValue then [.i32] else []) := by
    cases returnsValue <;> rfl
  -- Equations for texts put together like these are slow to make, so none are used here.
  delta declaration Wasm.FuncType.declaration
  simp only [type, hparams, hresult]

namespace Wasm

namespace Binding

/-- The bindings are the functions of the interface, in its order and with its types. -/
theorem name_type_functions : Interface.functions.map (fun f => (f.name, f.type)) =
    all.map fun b => (b.name, b.type) := by
  decide

/-- All bindings belong to the module of the interface. -/
theorem module_of_mem_all : ∀ b ∈ all, b.module = Interface.moduleName := by
  decide

/-- No two bindings have the same name. -/
theorem nodup_names : (all.map name).Nodup := by
  decide

/-- A binding is a function of the interface. -/
theorem exists_function_of_mem_all {b : Binding} (hb : b ∈ all) :
    ∃ f ∈ Interface.functions, f.name = b.name ∧ f.type = b.type := by
  have hmem : (b.name, b.type) ∈ Interface.functions.map fun f => (f.name, f.type) := by
    rw [name_type_functions]
    exact List.mem_map_of_mem hb
  simpa using hmem

/-- A function of the interface has a binding. -/
theorem exists_mem_all_of_function {f : HostFunction} (hf : f ∈ Interface.functions) :
    ∃ b ∈ all, b.name = f.name ∧ b.type = f.type := by
  have hmem : (f.name, f.type) ∈ all.map fun b => (b.name, b.type) := by
    rw [← name_type_functions]
    exact List.mem_map_of_mem hf
  simpa using hmem

/-- The binding that is found is the one with the given name. -/
theorem find?_eq_some_iff {module name : String} {b : Binding} :
    find? module name = some b ↔ b ∈ all ∧ b.module = module ∧ b.name = name := by
  constructor
  · intro h
    exact ⟨List.mem_of_find?_eq_some h, by simpa using List.find?_some h⟩
  · rintro ⟨hb, rfl, rfl⟩
    have hsome : (find? b.module b.name).isSome := List.find?_isSome.2 ⟨b, hb, by simp⟩
    obtain ⟨c, hc⟩ := Option.isSome_iff_exists.1 hsome
    -- Names are distinct, so what is found under the name of a binding is this binding.
    have hname : c.name = b.name := (by simpa using List.find?_some hc : _ ∧ _).2
    rw [hc, List.inj_on_of_nodup_map nodup_names (List.mem_of_find?_eq_some hc) hb hname]

/-- There is a binding exactly for what the interface offers. -/
theorem find?_isSome_iff {module name : String} : (find? module name).isSome ↔
    module = Interface.moduleName ∧ ∃ f ∈ Interface.functions, f.name = name := by
  rw [Option.isSome_iff_exists]
  constructor
  · rintro ⟨b, hb⟩
    obtain ⟨hmem, rfl, rfl⟩ := find?_eq_some_iff.1 hb
    obtain ⟨f, hf, hname, -⟩ := exists_function_of_mem_all hmem
    exact ⟨module_of_mem_all b hmem, f, hf, hname⟩
  · rintro ⟨rfl, f, hf, rfl⟩
    obtain ⟨b, hb, hname, -⟩ := exists_mem_all_of_function hf
    exact ⟨b, find?_eq_some_iff.2 ⟨hb, module_of_mem_all b hb, hname⟩⟩

end Binding

/-- The import to which a binding is linked. -/
def Binding.asImport (b : Binding) : Import := ⟨b.module, b.name, .func b.type⟩

/-- An import is linked to the binding that it asks for by name and type. -/
theorem Import.link?_eq_some_iff {i : Import} {b : Binding} :
    i.link? = some b ↔ b ∈ Binding.all ∧ i = b.asImport := by
  obtain ⟨module, name, kind⟩ := i
  constructor
  · intro hb
    cases kind with
    | other => cases hb
    | func type =>
      obtain ⟨c, hc, hlinked⟩ := Option.bind_eq_some_iff.1 hb
      obtain rfl : c.type = type := by
        by_contra hne
        rw [guard, if_neg hne] at hlinked
        cases hlinked
      rw [guard, if_pos rfl] at hlinked
      obtain rfl : c = b := by simpa using hlinked
      obtain ⟨hmem, rfl, rfl⟩ := Binding.find?_eq_some_iff.1 hc
      exact ⟨hmem, rfl⟩
  · rintro ⟨hmem, himport⟩
    cases himport
    have hfind : Binding.find? b.module b.name = some b :=
      Binding.find?_eq_some_iff.2 ⟨hmem, rfl, rfl⟩
    show ((Binding.find? b.module b.name).bind fun c =>
      (guard (c.type = b.type) : Option Unit).bind fun _ => some c) = some b
    rw [hfind, Option.bind_some, guard, if_pos rfl]
    rfl

/-- An import is linked exactly when it fits the interface. -/
theorem Import.link?_isSome_iff (i : Import) : i.link?.isSome ↔ i.Fits := by
  rw [Option.isSome_iff_exists]
  constructor
  · rintro ⟨b, hb⟩
    obtain ⟨hmem, rfl⟩ := link?_eq_some_iff.1 hb
    obtain ⟨f, hf, hname, htype⟩ := Binding.exists_function_of_mem_all hmem
    refine ⟨Binding.module_of_mem_all b hmem, f, hf, hname, ?_⟩
    rw [Binding.asImport, ← htype]
    rfl
  · rintro ⟨hmodule, f, hf, hname, hkind⟩
    obtain ⟨b, hb, hbname, hbtype⟩ := Binding.exists_mem_all_of_function hf
    refine ⟨b, link?_eq_some_iff.2 ⟨hb, ?_⟩⟩
    have hkind' : i.kind = .func b.type := by
      rw [hbtype]
      exact hkind
    rw [Binding.asImport, Binding.module_of_mem_all b hb, ← hmodule, hbname, hname, ← hkind']

/-- A list of options has a list of values when it has these. -/
theorem mapM_eq_some_iff {α β : Type} {f : α → Option β} {xs : List α} {ys : List β} :
    xs.mapM f = some ys ↔ xs.map f = ys.map some := by
  induction xs generalizing ys with
  | nil => cases ys <;> simp
  | cons x xs ih =>
    rw [List.mapM_cons, List.map_cons]
    cases hx : f x with
    | none => cases ys <;> simp
    | some y =>
      cases ys with
      | nil => cases xs.mapM f <;> simp
      | cons y' ys =>
        have hrest := @ih ys
        cases hxs : xs.mapM f <;> simp_all [eq_comm]

/-- A list of options has a list of values when none of them is empty. -/
theorem isSome_mapM_iff {α β : Type} (f : α → Option β) (xs : List α) :
    (xs.mapM f).isSome ↔ ∀ x ∈ xs, (f x).isSome := by
  induction xs with
  | nil => simp
  | cons x xs ih =>
    rw [List.mapM_cons, List.forall_mem_cons, ← ih]
    cases f x with
    | none => simp
    | some y => cases xs.mapM f <;> simp

/-- A linked module has the imports to which its bindings are linked, in the same order. -/
theorem Module.link?_eq_some_iff {m : Module} {imports : Array Binding} :
    m.link? = some imports ↔ m.imports.toList = imports.toList.map Binding.asImport ∧
      ∀ b ∈ imports.toList, b ∈ Binding.all := by
  have hlist : m.link? = some imports ↔
      m.imports.toList.map Import.link? = imports.toList.map some := by
    rw [link?, Array.mapM_eq_mapM_toList, ← mapM_eq_some_iff]
    cases m.imports.toList.mapM Import.link? with
    | none => simp
    | some bs => simp [← Array.toList_inj]
  rw [hlist]
  generalize m.imports.toList = is, imports.toList = bs
  induction is generalizing bs with
  | nil => cases bs <;> simp
  | cons i is ih =>
    cases bs with
    | nil => simp
    | cons b bs =>
      simp only [List.map_cons, List.cons.injEq, List.forall_mem_cons, ih, Import.link?_eq_some_iff]
      tauto

/-- A module is linked exactly when all its imports fit the interface. -/
theorem Module.link?_isSome_iff (m : Module) : m.link?.isSome ↔ ∀ i ∈ m.imports, i.Fits := by
  have hlist : m.link?.isSome ↔ (m.imports.toList.mapM Import.link?).isSome := by
    rw [link?, Array.mapM_eq_mapM_toList]
    simp
  rw [hlist, isSome_mapM_iff]
  simp only [Array.mem_toList_iff, Import.link?_isSome_iff]

end Wasm

/-- The text of the interface declares the bindings, each by its own type. -/
theorem Interface.preamble_eq : preamble =
    String.join (Wasm.Binding.all.map fun b => b.type.declaration b.module b.name ++ "\n") := by
  have hdeclare (f : HostFunction) : f.declaration moduleName ++ "\n" =
      (fun entry : String × Wasm.FuncType => entry.2.declaration moduleName entry.1 ++ "\n")
        (f.name, f.type) := by
    rw [f.declaration_eq]
  have hmodule : Wasm.Binding.all.map (fun b => b.type.declaration b.module b.name ++ "\n") =
      Wasm.Binding.all.map fun b => b.type.declaration moduleName b.name ++ "\n" :=
    List.map_congr_left fun b hb => by rw [Wasm.Binding.module_of_mem_all b hb]
  rw [preamble, List.map_congr_left fun f _ => hdeclare f, hmodule]
  have hentries := congrArg (List.map fun entry : String × Wasm.FuncType =>
    entry.2.declaration moduleName entry.1 ++ "\n") Wasm.Binding.name_type_functions
  simp only [List.map_map] at hentries
  exact congrArg String.join hentries

namespace Host

variable {h : Host} {n : Nat} {source : Wasm.Source} {m : Wasm.Module} {s t : Session}

/-- A valid module has the imports that its source declares, in the same order. -/
theorem imports_of_ofSource? (hm : Wasm.Module.ofSource? source = some m) :
    m.imports.toList = source.imports.map Prod.fst := by
  obtain ⟨-, -, hglobals⟩ := Option.bind_eq_some_iff.1 hm
  obtain ⟨-, -, hresolve⟩ := Option.bind_eq_some_iff.1 hglobals
  obtain ⟨resolved, hresolved, hvalid⟩ := Option.bind_eq_some_iff.1 hresolve
  obtain ⟨-, -, hsame⟩ := Option.bind_eq_some_iff.1 hvalid
  obtain ⟨funcs, -, hexports⟩ := Option.bind_eq_some_iff.1 hresolved
  obtain ⟨exports, -, hstart⟩ := Option.bind_eq_some_iff.1 hexports
  obtain ⟨start, -, hmade⟩ := Option.bind_eq_some_iff.1 hstart
  cases hsame
  cases hmade
  simp

/-- An import is unknown exactly when the interface does not offer it. -/
theorem isUnknown_eq_true_iff (i : Wasm.Import) : isUnknown i = true ↔ ¬ i.IsOffered := by
  have hfind : (Interface.find? i.name).isNone ↔ ¬ ∃ f ∈ Interface.functions, f.name = i.name := by
    simp [Interface.find?]
  rw [isUnknown, Bool.or_eq_true, hfind, Wasm.Import.IsOffered, decide_eq_true_iff, not_and_or]

/-- An import is not unknown exactly when the interface offers it. -/
theorem isUnknown_eq_false_iff (i : Wasm.Import) : isUnknown i = false ↔ i.IsOffered := by
  rw [← Bool.not_eq_true, isUnknown_eq_true_iff, not_not]

/-- A valid module is refused for its first unknown import. -/
theorem load_of_find?_eq_some (hm : Wasm.Module.ofSource? source = some m) {i : Wasm.Import}
    (hfind : m.imports.toList.find? isUnknown = some i) :
    h.load (some source) = .error (.unknownImport i.module i.name) := by
  rw [Array.find?_toList] at hfind
  simp only [load, Option.bind_some, hm, hfind]

/-- A valid module without unknown imports is loaded. -/
theorem load_of_find?_eq_none (hm : Wasm.Module.ofSource? source = some m)
    (hfind : m.imports.toList.find? isUnknown = none) : h.load (some source) = .ok m := by
  rw [Array.find?_toList] at hfind
  simp only [load, Option.bind_some, hm, hfind]

/-- A valid module is refused exactly when it has an import that is not offered, and it is the first
such one that is reported. -/
theorem load_eq_error_iff (hm : Wasm.Module.ofSource? source = some m) {module name : String} :
    h.load (some source) = .error (.unknownImport module name) ↔
      ∃ before i after, m.imports.toList = before ++ i :: after ∧
        (∀ j ∈ before, j.IsOffered) ∧ ¬ i.IsOffered ∧ i.module = module ∧ i.name = name := by
  have hfirst (i : Wasm.Import) : m.imports.toList.find? isUnknown = some i ↔
      ¬ i.IsOffered ∧ ∃ before after, m.imports.toList = before ++ i :: after ∧
        ∀ j ∈ before, j.IsOffered := by
    simp only [List.find?_eq_some_iff_append, isUnknown_eq_true_iff, Bool.not_eq_true',
      isUnknown_eq_false_iff]
  constructor
  · intro hload
    cases hfind : m.imports.toList.find? isUnknown with
    | none =>
      rw [load_of_find?_eq_none hm hfind] at hload
      cases hload
    | some i =>
      rw [load_of_find?_eq_some hm hfind] at hload
      cases hload
      obtain ⟨hunknown, before, after, himports, hbefore⟩ := (hfirst i).1 hfind
      exact ⟨before, i, after, himports, hbefore, hunknown, rfl, rfl⟩
  · rintro ⟨before, i, after, himports, hbefore, hunknown, rfl, rfl⟩
    exact load_of_find?_eq_some hm ((hfirst i).2 ⟨hunknown, before, after, himports, hbefore⟩)

/-- A valid module is loaded exactly when all its imports are offered. -/
theorem load_eq_ok_iff (hm : Wasm.Module.ofSource? source = some m) :
    h.load (some source) = .ok m ↔ ∀ i ∈ m.imports, i.IsOffered := by
  have hnone : m.imports.toList.find? isUnknown = none ↔ ∀ i ∈ m.imports, i.IsOffered := by
    simp only [List.find?_eq_none, isUnknown_eq_true_iff, not_not, Array.mem_toList_iff]
  rw [← hnone]
  refine ⟨fun hload => ?_, load_of_find?_eq_none hm⟩
  cases hfind : m.imports.toList.find? isUnknown with
  | none => rfl
  | some i =>
    rw [load_of_find?_eq_some hm hfind] at hload
    cases hload

/-- A module that is not linked makes no host calls, and its run does nothing but flush the output.
Whether the flush succeeds is not reported. -/
theorem run_of_link?_eq_none (hlink : m.link? = none) :
    h.run n m s = some (.error notLinked, s.finish.2) ∧ h.hostCalls n m s = [] := by
  constructor
  · simp only [run, execute, hlink]
    rfl
  · simp only [hostCalls, callsIn, callIn?, hlink]
    rfl

/-- The run of a module that is linked goes on to its start function and its entry point. -/
theorem run_of_link?_eq_some {imports : Array Wasm.Binding} (hlink : m.link? = some imports) :
    (runStart h.machine (h.instantiate m imports) n s = none → h.run n m s = none) ∧
    (∀ w, runStart h.machine (h.instantiate m imports) n s = some (.returned, w) →
      h.run n m s = (h.callEntry (h.instantiate m imports) n w).map conclude) ∧
    ∀ outcome w, runStart h.machine (h.instantiate m imports) n s = some (outcome, w) →
      outcome ≠ .returned → h.run n m s = some (.error notStarted, w.session.finish.2) := by
  refine ⟨fun hstart => ?_, fun w hstart => ?_, fun outcome w hstart hends => ?_⟩
  · simp only [run, execute, hlink, hstart, Option.map_none]
  · simp only [run, execute, hlink, hstart]
  · simp only [run, execute, hlink, hstart]
    cases outcome with
    | returned => exact absurd rfl hends
    | trapped | failed | outOfFuel => rfl

/-- When a module is linked, that it was not instantiated is reported only of its start function. -/
theorem runStart_of_run_eq_instantiate {imports : Array Wasm.Binding} {reason : String}
    (hlink : m.link? = some imports)
    (hrun : h.run n m s = some (.error (.instantiate reason), t)) :
    ∃ outcome w, runStart h.machine (h.instantiate m imports) n s = some (outcome, w) ∧
      outcome ≠ .returned := by
  obtain ⟨u, hexecute, -⟩ := exists_execute_of_exitStatus_two hrun rfl
  rcases execute_cases hexecute with ⟨hnone, -⟩ |
    ⟨imports', outcome, w, hlink', hstart, hends, -⟩ | ⟨imports', w, -, -, hentry⟩
  · rw [hlink] at hnone
    cases hnone
  · obtain rfl : imports = imports' := Option.some.inj (hlink.symm.trans hlink')
    exact ⟨outcome, w, hstart, hends⟩
  -- What is reported of a call of the entry point is something else.
  · exfalso
    rcases callEntry_cases hentry with ⟨-, hrefuse⟩ | ⟨f, outcome, w', -, -, -, hreport, -⟩
    · unfold refuse at hrefuse
      split at hrefuse <;> cases hrefuse
    · cases outcome <;> cases hreport

/-- A module that is linked is not reported as one that is not. -/
theorem run_ne_notLinked {imports : Array Wasm.Binding} (hlink : m.link? = some imports) :
    h.run n m s ≠ some (.error notLinked, t) := by
  intro hrun
  obtain ⟨outcome, w, hstart, hends⟩ := runStart_of_run_eq_instantiate hlink hrun
  have hran := (run_of_link?_eq_some hlink).2.2 outcome w hstart hends
  rw [hrun] at hran
  simp [notLinked, notStarted] at hran

/-- Loading and linking accept exactly what the interface offers. A valid module has the imports
that its source declares. It is refused exactly when it has an import that the interface does not
offer under its name, and the first such import is reported; it is loaded otherwise. Its run gets
past linking exactly when each import is a function with the parameters and the result that the
interface gives it. When one is not, the run fails for this, no host call was made, the heap, the
input and the bytes written are as before, and the output was flushed once. When all are, they are
linked to the bindings that they ask for, and the run goes on to the start function and, if that
returns, to the entry point: that the module was not instantiated is then reported of its start
function only. The bindings, the functions of the interface and the declarations in its
text are the same. -/
theorem load_and_link_iff (hm : Wasm.Module.ofSource? source = some m) :
    m.imports.toList = source.imports.map Prod.fst ∧
    (∀ module name, h.load (some source) = .error (.unknownImport module name) ↔
      ∃ before i after, m.imports.toList = before ++ i :: after ∧
        (∀ j ∈ before, j.IsOffered) ∧ ¬ i.IsOffered ∧ i.module = module ∧ i.name = name) ∧
    (h.load (some source) = .ok m ↔ ∀ i ∈ m.imports, i.IsOffered) ∧
    (∀ n s, (∀ t, h.run n m s ≠ some (.error notLinked, t)) ↔ ∀ i ∈ m.imports, i.Fits) ∧
    (∀ n s, ¬ (∀ i ∈ m.imports, i.Fits) →
      ∃ t, h.run n m s = some (.error notLinked, t) ∧
        h.hostCalls n m s = [] ∧ t.heap = s.heap ∧ t.console.input = s.console.input ∧
        t.console.output.written = s.console.output.written ∧
        t.console.output.flushes = s.console.output.flushes + 1) ∧
    ((∀ i ∈ m.imports, i.Fits) → ∃ imports : Array Wasm.Binding, m.link? = some imports ∧
      m.imports.toList = imports.toList.map Wasm.Binding.asImport ∧
      (∀ b ∈ imports.toList, b ∈ Wasm.Binding.all) ∧
      ∀ n s,
        (runStart h.machine (h.instantiate m imports) n s = none → h.run n m s = none) ∧
        (∀ w, runStart h.machine (h.instantiate m imports) n s = some (.returned, w) →
          h.run n m s = (h.callEntry (h.instantiate m imports) n w).map conclude) ∧
        (∀ outcome w, runStart h.machine (h.instantiate m imports) n s = some (outcome, w) →
          outcome ≠ .returned → h.run n m s = some (.error notStarted, w.session.finish.2)) ∧
        ∀ reason t, h.run n m s = some (.error (.instantiate reason), t) →
          ∃ outcome w, runStart h.machine (h.instantiate m imports) n s = some (outcome, w) ∧
            outcome ≠ .returned) ∧
    (∀ module name, (Wasm.Binding.find? module name).isSome ↔
      module = Interface.moduleName ∧ ∃ f ∈ Interface.functions, f.name = name) ∧
    Interface.functions.map (fun f => (f.name, f.type)) =
      Wasm.Binding.all.map (fun b => (b.name, b.type)) ∧
    Interface.preamble = String.join
      (Wasm.Binding.all.map fun b => b.type.declaration b.module b.name ++ "\n") := by
  have hunlinked (hunfit : ¬ ∀ i ∈ m.imports, i.Fits) : m.link? = none := by
    simpa using fun hlinked => hunfit (m.link?_isSome_iff.1 hlinked)
  refine ⟨imports_of_ofSource? hm, fun _ _ => load_eq_error_iff hm, load_eq_ok_iff hm,
    fun n s => ⟨fun hpast => ?_, fun hfit t => ?_⟩, fun n s hunfit => ?_, fun hfit => ?_,
    fun _ _ => Wasm.Binding.find?_isSome_iff, Wasm.Binding.name_type_functions,
    Interface.preamble_eq⟩
  · by_contra hunfit
    exact hpast _ (run_of_link?_eq_none (hunlinked hunfit)).1
  · obtain ⟨imports, hlink⟩ := Option.isSome_iff_exists.1 (m.link?_isSome_iff.2 hfit)
    exact run_ne_notLinked hlink
  · obtain ⟨hrun, hcalls⟩ := run_of_link?_eq_none (h := h) (n := n) (s := s) (hunlinked hunfit)
    exact ⟨_, hrun, hcalls, rfl, rfl, rfl, rfl⟩
  · obtain ⟨imports, hlink⟩ := Option.isSome_iff_exists.1 (m.link?_isSome_iff.2 hfit)
    obtain ⟨himports, hbindings⟩ := Wasm.Module.link?_eq_some_iff.1 hlink
    refine ⟨imports, hlink, himports, hbindings, fun n s => ?_⟩
    obtain ⟨hunfinished, hreturns, hfails⟩ := run_of_link?_eq_some (h := h) (n := n) (s := s) hlink
    exact ⟨hunfinished, hreturns, hfails, fun reason t => runStart_of_run_eq_instantiate hlink⟩

/-- The text of a module that does nothing and has the given imports. -/
def importing (imports : List Wasm.Import) : Wasm.Source where
  imports := imports.map fun i => (i, none)
  globals := []
  funcs := [⟨"enters", ⟨[], []⟩, [], .done⟩]
  exports := [⟨"main", "enters", .func⟩]
  start := none

/-- Of two unknown imports the first is reported. A module that imports `set` with a result can be
loaded, but it is not linked and its run fails. Without this import its run goes on, here to its
end. -/
theorem load_and_link_iff_importing :
    let print : Wasm.Import := ⟨"drac", "printi", .func ⟨[.i32], [.i32]⟩⟩
    let log : Wasm.Import := ⟨"env", "log", .other⟩
    let pop : Wasm.Import := ⟨"drac", "pop", .other⟩
    let set : Wasm.Import := ⟨"drac", "set", .func ⟨[.i32, .i32, .i32], [.i32]⟩⟩
    let s := Session.start (.scripted [104, 105, 10])
    standard.load (some (importing [print, log, pop])) = .error (.unknownImport "env" "log") ∧
      (∃ m, standard.load (some (importing [print, set])) = .ok m ∧
        ∃ t, standard.run 20 m s = some (.error notLinked, t) ∧
          t.heap = .empty ∧ t.console.input.unread = [104, 105, 10] ∧
          t.console.output.written = #[] ∧ t.console.output.flushes = 1) ∧
      ∃ m, standard.load (some (importing [print])) = .ok m ∧
        (∀ t, standard.run 20 m s ≠ some (.error notLinked, t)) ∧
        ∃ t, standard.run 20 m s = some (.ok (), t) := by
  intro print log pop set s
  have hvalid : (Wasm.Module.ofSource? (importing [print, log, pop])).isSome := by decide +kernel
  have hvalid' : (Wasm.Module.ofSource? (importing [print, set])).isSome := by decide +kernel
  have hvalid'' : (Wasm.Module.ofSource? (importing [print])).isSome := by decide +kernel
  obtain ⟨m, hm⟩ := Option.isSome_iff_exists.1 hvalid
  obtain ⟨m', hm'⟩ := Option.isSome_iff_exists.1 hvalid'
  obtain ⟨m'', hm''⟩ := Option.isSome_iff_exists.1 hvalid''
  obtain ⟨hlist, hrefused, -⟩ := load_and_link_iff (h := standard) hm
  obtain ⟨hlist', -, hloaded, -, hfails, -⟩ := load_and_link_iff (h := standard) hm'
  obtain ⟨hlist'', -, hloaded'', hpast, -, -⟩ := load_and_link_iff (h := standard) hm''
  have himports : m'.imports = #[print, set] := Array.toList_inj.1 hlist'
  have himports' : m''.imports = #[print] := Array.toList_inj.1 hlist''
  have hset : ¬ ∀ i ∈ m'.imports, i.Fits := by
    rw [himports]
    decide
  have hprint : ∀ i ∈ m''.imports, i.Fits := by
    rw [himports']
    decide
  obtain ⟨t, hrun, -, hheap, hinput, hwritten, hflushes⟩ := hfails 20 s hset
  refine ⟨(hrefused "env" "log").2 ⟨[print], log, [pop], hlist, by decide, by decide, rfl, rfl⟩,
    ⟨m', hloaded.2 ?_, t, hrun, hheap, congrArg Console.Input.unread hinput, hwritten, hflushes⟩,
    m'', hloaded''.2 ?_, (hpast 20 s).2 hprint, ?_⟩
  · rw [himports]
    decide
  · rw [himports']
    decide
  · have hends : ((Wasm.Module.ofSource? (importing [print])).bind fun m =>
        (standard.run 20 m s).map Prod.fst) = some (.ok ()) := by decide +kernel
    rw [hm'', Option.bind_some] at hends
    obtain ⟨⟨result, t⟩, hrun, rfl⟩ := Option.map_eq_some_iff.1 hends
    exact ⟨t, hrun⟩

end Host

end ArrayHost
