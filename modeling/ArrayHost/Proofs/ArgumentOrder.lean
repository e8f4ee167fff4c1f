import ArrayHost.CommandLine.Options
import ArrayHost.Proofs.Numerals
import Mathlib.Data.List.Nodup
import Mathlib.Data.List.Perm.Basic

/-!
# Options in any order

A command line is made of groups of arguments: the module path, an option with its value, a flag. A
`Request` says what is asked for and how each part of it is written, and `Request.groups` lists its
groups in one order. `read_of_perm` shows that they are read as the options asked for in every
order.

An argument is examined only when a later one, or the end, shows that it is complete. So what has
been read is compared with options through `Reading.Says`: it says the options that it will come to
once the argument that was begun is examined. A group that gives something new takes a reading that
says some options to one that says the options with what the group gives (`Reading.Says.group`), and
by induction so do groups of which no two are about one thing (`Reading.Says.groups`). What they
give does not depend on their order, because no group touches what another one gives
(`Group.apply_comm`).
-/

namespace ArrayHost.CommandLine

/-! ## Groups of arguments -/

/-- A text that is a value or a path wherever it stands. -/
structure Plain where
  /-- The text. -/
  text : String
  /-- The text is not empty. -/
  ne_empty : text ≠ ""
  /-- The text does not begin as options do. -/
  head_ne : text.toList.head? ≠ some '-'

/-- A number of 64 bits in decimal. -/
structure Decimal where
  /-- The digits. -/
  text : String
  /-- The number. -/
  value : UInt64
  /-- The digits are those of the number. There may be zeroes before them. -/
  isNatural : Text.IsNatural text.toList value.toNat

/-- A number with as few digits as it takes. -/
def Decimal.ofWord (n : UInt64) : Decimal where
  text := .ofList (Nat.toDigits 10 n.toNat)
  value := n
  isNatural := by
    rw [String.toList_ofList]
    exact Text.isNatural_digits _

/-- A number is a value wherever it stands. -/
def Decimal.plain (d : Decimal) : Plain where
  text := d.text
  ne_empty h := d.isNatural.1 (by rw [h]; rfl)
  head_ne h := by
    obtain ⟨digits, hdigits⟩ := List.head?_eq_some_iff.1 h
    have hminus : Text.IsNatural ('-' :: digits) d.value.toNat := hdigits ▸ d.isNatural
    exact hminus.head_ne.1 rfl

/-- An option and the value that it is given. -/
inductive Setting where
  /-- The name of the entry point. -/
  | entry (name : Plain)
  /-- The fuel granted to the run. -/
  | fuel (number : Decimal)
  /-- The size of the stack. -/
  | maxStack (number : Decimal)

namespace Setting

/-- The option that is set. -/
def slot : Setting → Slot
  | .entry _ => .entry
  | .fuel _ => .fuel
  | .maxStack _ => .maxStack

/-- The name of the option that is set. -/
def name : Setting → String
  | .entry _ => "entry"
  | .fuel _ => "fuel"
  | .maxStack _ => "max-stack"

/-- The value as it is written. -/
def value : Setting → Plain
  | .entry name => name
  | .fuel number | .maxStack number => number.plain

/-- The options with one of them set. -/
def apply (o : Options) : Setting → Options
  | .entry name => { o with entry := some name.text }
  | .fuel number => { o with fuel := some number.value }
  | .maxStack number => { o with maxStack := some number.value }

end Setting

/-- How an option is given its value. -/
inductive Style where
  /-- The value is the next argument. -/
  | apart
  /-- The value is in the same argument, after an equals sign. -/
  | joined

/-- The arguments that give an option its value. -/
def Style.arguments (s : Setting) : Style → List String
  | .apart => ["--" ++ s.name, s.value.text]
  | .joined => ["--" ++ s.name ++ "=" ++ s.value.text]

/-- Arguments that belong together. -/
inductive Group where
  /-- The module path. -/
  | path (path : Plain)
  /-- An option with its value. -/
  | setting (style : Style) (setting : Setting)
  /-- The flag that has the import declarations printed. -/
  | printImports

namespace Group

/-- The arguments of a group. -/
def arguments : Group → List String
  | .path p => [p.text]
  | .setting style s => style.arguments s
  | .printImports => ["--print-imports"]

/-- What a group is about: an argument with a value, or else the flag. -/
def slot? : Group → Option Slot
  | .path _ => some .module
  | .setting _ s => some s.slot
  | .printImports => none

/-- The options with what a group gives. -/
def apply (o : Options) : Group → Options
  | .path p => { o with module := some p.text }
  | .setting _ s => s.apply o
  | .printImports => { o with printImports := true }

end Group

/-- The options have what a group about this gives. -/
def Options.gives (o : Options) : Option Slot → Bool
  | some slot => o.has slot
  | none => o.printImports

variable {r : Reading} {o o' : Options} {g g' : Group} {gs : List Group}

/-- A group gives what it is about and nothing else. -/
theorem Group.gives_apply (slot? : Option Slot) :
    (g.apply o).gives slot? = (o.gives slot? || slot? == g.slot?) := by
  rcases g with p | ⟨style, s | s | s⟩ | _ <;> rcases slot? with _ | ⟨_ | _ | _ | _⟩ <;>
    simp [Options.gives, Options.has, apply, Setting.apply, Group.slot?, Setting.slot]

/-- Groups that are about different things give the same in either order. -/
theorem Group.apply_comm (h : g.slot? ≠ g'.slot?) (o : Options) :
    g'.apply (g.apply o) = g.apply (g'.apply o) := by
  rcases g with p | ⟨style, s | s | s⟩ | _ <;> rcases g' with p' | ⟨style', s' | s' | s'⟩ | _ <;>
    simp_all [apply, Setting.apply, slot?, Setting.slot]

/-- Groups of which no two are about one thing give the same in every order. -/
theorem Group.foldl_apply_of_perm {gs' : List Group} (hperm : gs.Perm gs')
    (hnodup : (gs.map slot?).Nodup) (o : Options) : gs.foldl apply o = gs'.foldl apply o := by
  refine hperm.foldl_eq' (fun g hg g' hg' o => ?_) o
  by_cases heq : g.slot? = g'.slot?
  · rw [List.inj_on_of_nodup_map hnodup hg hg' heq]
  · exact apply_comm heq o

/-! ## How an argument is read -/

/-- The digits of a number are read as that number. -/
theorem Decimal.number?_text (d : Decimal) : number? d.text = some d.value := by
  obtain ⟨hne, hdigits, hvalue⟩ := d.isNatural
  have hnatural : Text.natural? d.text.toList = some d.value.toNat := by
    rw [Text.natural?, if_pos ⟨hne, List.all_eq_true.2 hdigits⟩, ← hvalue]
  unfold number?
  split
  · next digits heq =>
    have hplus : Text.IsNatural ('+' :: digits) d.value.toNat := heq ▸ d.isNatural
    exact absurd rfl hplus.head_ne.2
  · show (Text.natural? d.text.toList).bind _ = _
    rw [hnatural, Option.bind_some, if_pos d.value.toNat_lt, UInt64.ofNat_toNat]

/-- An option that has no value yet takes the one that it is given. -/
theorem Setting.set_eq (s : Setting) (hnew : o.has s.slot = false) :
    o.set s.slot s.value.text = .ok (s.apply o) := by
  unfold Options.set
  rw [if_neg (by simp [hnew])]
  cases s with
  | entry name => rfl
  | fuel number | maxStack number =>
    simp only [slot, value, Decimal.plain, number.number?_text]
    rfl

/-- The name of an option that is set is that of a long option. -/
theorem Setting.ofName?_name (s : Setting) : Long.ofName? s.name = some (.slot s.slot) := by
  cases s <;> rfl

/-- No option that is set touches the module path. -/
theorem Setting.module_apply (s : Setting) (o : Options) : (s.apply o).module = o.module := by
  cases s <;> rfl

section

variable {name value : String}

/-- A text that does not begin as options do is a value. -/
theorem argument_plain (hr : r.escaped = false) (p : Plain) :
    r.argument p.text = r.value p.text := by
  have hhead := p.head_ne
  unfold Reading.argument
  rw [if_neg (by simp [hr])]
  split
  · next heq => simp [heq] at hhead
  · next heq => simp [heq] at hhead
  · next heq => simp [heq] at hhead
  · rfl

/-- Two dashes and more are a long option, whose name ends at the first equals sign. -/
theorem argument_of_toList (hr : r.escaped = false) {arg : String} (rest : List Char)
    (hne : name.toList ++ rest ≠ []) (hname : '=' ∉ name.toList)
    (harg : arg.toList = '-' :: '-' :: (name.toList ++ rest)) : r.argument arg =
      match rest.dropWhile (· ≠ '=') with
      | [] => r.long (.ofList (name.toList ++ rest.takeWhile (· ≠ '='))) none
      | _ :: value =>
        r.long (.ofList (name.toList ++ rest.takeWhile (· ≠ '='))) (some (.ofList value)) := by
  have hchars (c : Char) (hc : c ∈ name.toList) : decide (c ≠ '=') = true :=
    decide_eq_true fun heq => hname (heq ▸ hc)
  rw [← List.takeWhile_append_of_pos hchars, ← List.dropWhile_append_of_pos hchars]
  unfold Reading.argument
  rw [if_neg (by simp [hr]), harg]
  cases hmore : name.toList ++ rest with
  | nil => exact absurd hmore hne
  | cons c more => rfl

/-- A long option whose value is not in the same argument. -/
theorem argument_long (hr : r.escaped = false) (hne : name ≠ "") (hname : '=' ∉ name.toList) :
    r.argument ("--" ++ name) = r.long name none := by
  rw [argument_of_toList hr [] (by simpa using hne) hname (by simp)]
  simp

/-- A long option with its value. The value may have equals signs in it. -/
theorem argument_joined (hr : r.escaped = false) (hname : '=' ∉ name.toList) :
    r.argument ("--" ++ name ++ "=" ++ value) = r.long name (some value) := by
  rw [argument_of_toList hr ('=' :: value.toList) (by simp) hname (by simp)]
  simp

/-- Long options have names, in which there are no equals signs. -/
theorem name_of_ofName? {option : Long} (h : Long.ofName? name = some option) :
    name ≠ "" ∧ '=' ∉ name.toList := by
  unfold Long.ofName? at h
  split at h <;> simp at h ⊢

end

/-! ## What has been read -/

namespace Reading

/-- What has been read says the options, once the argument that was begun is examined. -/
def Says (r : Reading) (o : Options) : Prop :=
  r.settle = .ok { options := o, hasPath := o.module.isSome }

namespace Says

/-- The reading once the argument that was begun is examined. -/
theorem settle_eq (h : r.Says o) :
    r.settle = .ok { options := o, hasPath := o.module.isSome } := h

/-- All that was read has been examined, or the last value is left to be. -/
theorem eq_or_holding (h : r.Says o) : r = { options := o, hasPath := o.module.isSome } ∨
    ∃ before slot value,
      r = { options := before, pending := .holding slot value, hasPath := o.module.isSome } ∧
        before.set slot value = .ok o := by
  obtain ⟨before, pending, hasPath, escaped⟩ := r
  cases pending with
  | nothing => exact .inl (Except.ok.inj h)
  | awaiting slot => cases h
  | holding slot value =>
    refine .inr ⟨before, slot, value, ?_⟩
    have hsettle := h.settle_eq
    unfold settle at hsettle
    cases hset : before.set slot value with
    | error e => simp [hset, bind, Except.bind] at hsettle
    | ok o' =>
      simp only [hset, bind, Except.bind, pure, Except.pure, Except.ok.injEq, mk.injEq] at hsettle
      obtain ⟨rfl, -, rfl, rfl⟩ := hsettle
      exact ⟨rfl, rfl⟩

/-- Options are still told from values. -/
theorem escaped (h : r.Says o) : r.escaped = false := by
  rcases h.eq_or_holding with rfl | ⟨before, slot, value, rfl, -⟩ <;> rfl

/-- A path has been read exactly when the options have one. -/
theorem hasPath (h : r.Says o) : r.hasPath = o.has .module := by
  rcases h.eq_or_holding with rfl | ⟨before, slot, value, rfl, -⟩ <;> rfl

/-- No option waits for its value. -/
theorem pending_ne (h : r.Says o) (slot : Slot) : r.pending ≠ .awaiting slot := by
  rcases h.eq_or_holding with rfl | ⟨before, slot, value, rfl, -⟩ <;> exact Pending.noConfusion

/-- A value is begun as the module path when there is none yet. -/
theorem value (h : r.Says o) (hnew : o.has .module = false) (text : String) :
    r.value text = .ok { options := o, pending := .holding .module text, hasPath := true } := by
  unfold Reading.value
  split
  · next slot hpending _ => exact absurd hpending (h.pending_ne slot)
  · rw [if_neg (by simp [h.hasPath, hnew]), h.settle_eq]
    rfl

section

variable {slot : Slot} {name : String}

/-- An option without its value is begun. -/
theorem long (h : r.Says o) (hname : Long.ofName? name = some (.slot slot)) :
    r.long name none =
      .ok { options := o, pending := .awaiting slot, hasPath := o.module.isSome } := by
  unfold Reading.long
  rw [hname]
  dsimp only
  rw [h.settle_eq]
  rfl

/-- An option with its value is examined at once. -/
theorem long_value (h : r.Says o) (hname : Long.ofName? name = some (.slot slot)) {value : String}
    (hset : o.set slot value = .ok o') :
    r.long name (some value) = .ok { options := o', hasPath := o.module.isSome } := by
  unfold Reading.long
  rw [hname]
  dsimp only
  rw [h.settle_eq]
  simp [hset, bind, Except.bind, pure, Except.pure]

end

/-- The flag is examined at once. -/
theorem long_printImports (h : r.Says o) (hnew : o.printImports = false) :
    r.long "print-imports" none =
      .ok { options := { o with printImports := true }, hasPath := o.module.isSome } := by
  show r.raise .printImports = _
  unfold Reading.raise
  rw [h.settle_eq]
  simp [Options.raise, hnew, bind, Except.bind, pure, Except.pure]

/-- The module path is added when it is new. -/
theorem path (h : r.Says o) (p : Plain) (hnew : o.has .module = false) :
    ∃ r', [p.text].foldlM argument r = .ok r' ∧ r'.Says { o with module := some p.text } := by
  refine ⟨{ options := o, pending := .holding .module p.text, hasPath := true }, ?_, ?_⟩
  · rw [List.foldlM_cons, argument_plain h.escaped, h.value hnew]
    rfl
  · have hset : o.set .module p.text = .ok { o with module := some p.text } := by
      simp [Options.set, hnew, p.ne_empty]
    unfold Says settle
    simp [hset, bind, Except.bind, pure, Except.pure]

/-- An option that is new is added, in both ways to give it its value. -/
theorem setting (h : r.Says o) (style : Style) (s : Setting) (hnew : o.has s.slot = false) :
    ∃ r', (style.arguments s).foldlM argument r = .ok r' ∧ r'.Says (s.apply o) := by
  obtain ⟨hne, hequals⟩ := name_of_ofName? s.ofName?_name
  cases style with
  | apart =>
    -- The value is held until what follows shows that it is complete.
    refine ⟨{ options := o, pending := .holding s.slot s.value.text, hasPath := o.module.isSome },
      ?_, ?_⟩
    · rw [Style.arguments, List.foldlM_cons, argument_long h.escaped hne hequals,
        h.long s.ofName?_name]
      show List.foldlM _ _ _ = _
      rw [List.foldlM_cons, argument_plain rfl]
      rfl
    · unfold Says settle
      simp [s.set_eq hnew, s.module_apply, bind, Except.bind, pure, Except.pure]
  | joined =>
    refine ⟨{ options := s.apply o, hasPath := o.module.isSome }, ?_, ?_⟩
    · rw [Style.arguments, List.foldlM_cons, argument_joined h.escaped hequals,
        h.long_value s.ofName?_name (s.set_eq hnew)]
      rfl
    · rw [← s.module_apply o]
      rfl

/-- The flag is added when it is new. -/
theorem printImports (h : r.Says o) (hnew : o.printImports = false) :
    ∃ r', ["--print-imports"].foldlM argument r = .ok r' ∧
      r'.Says { o with printImports := true } := by
  have hne : "print-imports" ≠ "" := by decide
  have harg : r.argument "--print-imports" = r.long "print-imports" none :=
    argument_long h.escaped hne (by decide)
  refine ⟨{ options := { o with printImports := true }, hasPath := o.module.isSome }, ?_, rfl⟩
  rw [List.foldlM_cons, harg, h.long_printImports hnew]
  rfl

/-- A group that is about something new adds to the options what it gives. -/
theorem group (h : r.Says o) (hnew : o.gives g.slot? = false) :
    ∃ r', g.arguments.foldlM argument r = .ok r' ∧ r'.Says (g.apply o) := by
  cases g with
  | path p => exact h.path p hnew
  | setting style s => exact h.setting style s hnew
  | printImports => exact h.printImports hnew

/-- Groups that are about different things, all of them new, add to the options what they give. -/
theorem groups (h : r.Says o) (hnodup : (gs.map Group.slot?).Nodup)
    (hnew : ∀ g ∈ gs, o.gives g.slot? = false) :
    ∃ r', (gs.flatMap Group.arguments).foldlM argument r = .ok r' ∧
      r'.Says (gs.foldl Group.apply o) := by
  induction gs generalizing r o with
  | nil => exact ⟨r, rfl, h⟩
  | cons g gs ih =>
    obtain ⟨hslot, hnodup⟩ := List.nodup_cons.1 hnodup
    obtain ⟨hg, hnew⟩ := List.forall_mem_cons.1 hnew
    obtain ⟨r₁, hr₁, hfirst⟩ := h.group hg
    have hrest (g' : Group) (hg' : g' ∈ gs) : (g.apply o).gives g'.slot? = false := by
      rw [Group.gives_apply, hnew g' hg', Bool.false_or, beq_eq_false_iff_ne]
      exact fun heq => hslot (List.mem_map.2 ⟨g', hg', heq⟩)
    obtain ⟨r₂, hr₂, hall⟩ := ih hfirst hnodup hrest
    refine ⟨r₂, ?_, hall⟩
    rw [List.flatMap_cons, List.foldlM_append, hr₁]
    exact hr₂

end Says

end Reading

/-- Groups that are about different things are read as the options with what they give, if those
have a module or the import declarations are asked for. -/
theorem read_groups (hnodup : (gs.map Group.slot?).Nodup) :
    Options.read (gs.flatMap Group.arguments) =
      let o := gs.foldl Group.apply ({} : Options)
      if o.module.isNone ∧ ¬o.printImports then .error .missingRequiredArgument else .ok o := by
  have hstart : Reading.Says {} {} := rfl
  have hnew (slot? : Option Slot) : ({} : Options).gives slot? = false := by
    rcases slot? with _ | ⟨_ | _ | _ | _⟩ <;> rfl
  obtain ⟨r, hr, hend⟩ := hstart.groups hnodup fun g _ => hnew g.slot?
  unfold Options.read
  rw [hr]
  show (r.settle >>= _) = _
  rw [hend.settle_eq]
  rfl

/-! ## Requests -/

/-- What is asked for, with the way in which each part of it is written. -/
structure Request where
  /-- The module path. -/
  module : Option Plain
  /-- The name of the entry point. -/
  entry : Option (Style × Plain)
  /-- The fuel granted to the run. -/
  fuel : Option (Style × Decimal)
  /-- The size of the stack. -/
  maxStack : Option (Style × Decimal)
  /-- Whether the import declarations are printed. -/
  printImports : Bool

namespace Request

/-- The groups of arguments for a request, each part in one group. -/
def groups (q : Request) : List Group :=
  (q.module.map .path).toList ++
    (q.entry.map fun (style, name) => .setting style (.entry name)).toList ++
    (q.fuel.map fun (style, number) => .setting style (.fuel number)).toList ++
    (q.maxStack.map fun (style, number) => .setting style (.maxStack number)).toList ++
    if q.printImports then [.printImports] else []

/-- The options that are asked for. -/
def options (q : Request) : Options where
  module := q.module.map Plain.text
  entry := q.entry.map fun (_, name) => name.text
  fuel := q.fuel.map fun (_, number) => number.value
  maxStack := q.maxStack.map fun (_, number) => number.value
  printImports := q.printImports

/-- No two groups of a request are about one thing. -/
theorem nodup_groups (q : Request) : (q.groups.map Group.slot?).Nodup := by
  rcases q with ⟨_ | _, _ | _, _ | _, _ | _, _ | _⟩ <;>
    simp [groups, Group.slot?, Setting.slot]

/-- The groups of a request give what is asked for. -/
theorem foldl_groups (q : Request) : q.groups.foldl Group.apply ({} : Options) = q.options := by
  rcases q with ⟨_ | _, _ | _, _ | _, _ | _, _ | _⟩ <;> rfl

/-- The configuration that a request selects. -/
theorem config_options (q : Request) : q.options.config =
    { entryPoint := (q.entry.map fun (_, name) => name.text).getD "main"
      consumeFuel := q.fuel.isSome
      fuel := (q.fuel.map fun (_, number) => number.value).getD ({} : Config).fuel
      maxStack := (q.maxStack.map fun (_, number) => number.value).getD ({} : Config).maxStack } := by
  rcases q with ⟨_ | _, _ | _, _ | _, _ | _, _ | _⟩ <;> rfl

end Request

/-- The groups of a request in any order. With a module, or when the import declarations are asked
for, they are read as exactly what is asked for, and without either they are refused. The
configuration has the entry point, the fuel and the stack that are asked for. What is not asked for
is as in the configuration by default, and fuel is limited only when it is asked for. -/
theorem read_of_perm {q : Request} (hgs : gs.Perm q.groups) :
    (q.module ≠ none ∨ q.printImports = true →
      Options.read (gs.flatMap Group.arguments) = .ok q.options) ∧
    (q.module = none → q.printImports = false →
      Options.read (gs.flatMap Group.arguments) = .error .missingRequiredArgument) ∧
    q.options.config =
      { entryPoint := (q.entry.map fun (_, name) => name.text).getD "main"
        consumeFuel := q.fuel.isSome
        fuel := (q.fuel.map fun (_, number) => number.value).getD ({} : Config).fuel
        maxStack :=
          (q.maxStack.map fun (_, number) => number.value).getD ({} : Config).maxStack } := by
  have hnodup : (gs.map Group.slot?).Nodup := (hgs.map _).nodup_iff.2 q.nodup_groups
  have hread := read_groups hnodup
  rw [Group.foldl_apply_of_perm hgs hnodup, q.foldl_groups] at hread
  have hmodule : q.options.module = none ↔ q.module = none := Option.map_eq_none_iff
  refine ⟨fun h => ?_, fun hnone hflag => ?_, q.config_options⟩
  · rw [hread]
    refine if_neg fun hneither => ?_
    rcases h with hsome | hflag
    · exact hsome (hmodule.1 (Option.isNone_iff_eq_none.1 hneither.1))
    · exact hneither.2 hflag
  · rw [hread]
    exact if_pos ⟨Option.isNone_iff_eq_none.2 (hmodule.2 hnone), by simp [Request.options, hflag]⟩

/-- The path stands between options that have their values in both ways. The name of the entry point
has an equals sign in it, the fuel is the greatest there is, and the size of the stack has a zero
before it. The fuel alone is refused. -/
theorem read_of_perm_between :
    let name : Plain := ⟨"a=b", by decide, by decide⟩
    let path : Plain := ⟨"prog.wat", by decide, by decide⟩
    let fuel : Decimal := .ofWord 18446744073709551615
    let maxStack : Decimal := ⟨"065536", 65536, by decide, List.all_eq_true.1 rfl, rfl⟩
    let q : Request :=
      ⟨some path, some (.joined, name), some (.apart, fuel), some (.joined, maxStack), false⟩
    let gs : List Group :=
      [.setting .joined (.maxStack maxStack), .path path, .setting .joined (.entry name),
        .setting .apart (.fuel fuel)]
    gs.Perm q.groups ∧
      gs.flatMap Group.arguments =
        ["--max-stack=065536", "prog.wat", "--entry=a=b", "--fuel", "18446744073709551615"] ∧
      Options.read (gs.flatMap Group.arguments) = .ok
        { module := some "prog.wat", entry := some "a=b", fuel := some 18446744073709551615,
          maxStack := some 65536 } ∧
      q.options.config = ⟨"a=b", true, 18446744073709551615, 65536⟩ ∧
      Options.read ["--fuel", "18446744073709551615"] = .error .missingRequiredArgument := by
  intro name path fuel maxStack q gs
  have hperm : gs.Perm q.groups := (List.perm_append_singleton _ _).symm
  obtain ⟨hread, -, hconfig⟩ := read_of_perm hperm
  let alone : Request := ⟨none, none, some (.apart, fuel), none, false⟩
  obtain ⟨-, hrefused, -⟩ := read_of_perm (List.Perm.refl alone.groups)
  have harguments : alone.groups.flatMap Group.arguments = ["--fuel", "18446744073709551615"] := by
    decide +kernel
  rw [harguments] at hrefused
  exact ⟨hperm, by decide +kernel, hread (.inl (Option.some_ne_none _)), hconfig,
    hrefused rfl rfl⟩

end ArrayHost.CommandLine
