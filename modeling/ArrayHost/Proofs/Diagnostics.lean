import ArrayHost.Failure
import ArrayHost.Interface
import ArrayHost.Proofs.Numerals

/-!
# What a message tells

The message of a failure opens with a text of its variant, and that of a fatal error goes on with
the name of the function and with a text of the kind. No two of the texts that may stand in one
place begin alike (`PrefixFree`), so a message can be cut in only one way, whatever texts follow
(`PrefixFree.append_inj`). What is left at the end is any text or the numeral of a word, and a
numeral is that of one word only. So the message of a fatal error tells all of it
(`Fatal.eq_of_detail_eq`), and the message of a failure tells its variant and with it the exit
status (`Failure.identified_of_message_eq`).

The message of an unknown import does not tell where the module's name ends.
-/

namespace ArrayHost

/-- No two members have texts of which one begins with the other. -/
def PrefixFree {α : Type} (members : List α) (text : α → String) : Prop :=
  ∀ v ∈ members, ∀ w ∈ members, (text v).toList <+: (text w).toList → v = w

instance {α : Type} [DecidableEq α] (members : List α) (text : α → String) :
    Decidable (PrefixFree members text) :=
  inferInstanceAs (Decidable (∀ v ∈ members, ∀ w ∈ members, _ → _))

/-- What is put together from the text of a member and some rest can be cut in only one way. -/
theorem PrefixFree.append_inj {α : Type} {members : List α} {text : α → String}
    (h : PrefixFree members text) {v w : α} (hv : v ∈ members) (hw : w ∈ members)
    {rest rest' : String} (heq : text v ++ rest = text w ++ rest') : v = w ∧ rest = rest' := by
  have hchars := congrArg String.toList heq
  rw [String.toList_append, String.toList_append] at hchars
  have hv' : (text v).toList <+: (text w).toList ++ rest'.toList := ⟨rest.toList, hchars⟩
  have hvw : v = w := by
    rcases List.prefix_or_prefix_of_prefix hv' (List.prefix_append _ _) with hle | hle
    · exact h v hv w hw hle
    · exact (h w hw v hv hle).symm
  subst hvw
  exact ⟨rfl, String.toList_inj.1 (List.append_cancel_left hchars)⟩

namespace Fatal

namespace Kind

/-- The variant of a kind, without what it carries. -/
inductive Variant where
  /-- No array has the handle. -/
  | invalidHandle
  /-- No element has the index. -/
  | indexOutOfBounds
  /-- The size of an array is negative. -/
  | negativeSize
  /-- No input is left. -/
  | endOfInput
  /-- A stream failed. -/
  | io
  deriving DecidableEq

/-- All variants. -/
def variants : List Variant :=
  [.invalidHandle, .indexOutOfBounds, .negativeSize, .endOfInput, .io]

/-- The text that the messages of a variant open with. -/
def Variant.opening : Variant → String
  | .invalidHandle => "Invalid array handle: "
  | .indexOutOfBounds => "Array index out of bounds: "
  | .negativeSize => "Can't create a negative size array: "
  | .endOfInput => "Unexpected end of input"
  | .io => "IO error: "

/-- The variant of a kind. -/
def variant : Kind → Variant
  | .heap (.invalidHandle _) => .invalidHandle
  | .heap (.indexOutOfBounds _) => .indexOutOfBounds
  | .heap (.negativeSize _) => .negativeSize
  | .console .endOfInput => .endOfInput
  | .console (.io _) => .io

/-- What the message of a kind has after its opening. -/
def detail : Kind → String
  | .heap (.invalidHandle n) | .heap (.indexOutOfBounds n) | .heap (.negativeSize n) =>
    Text.wordText n
  | .console .endOfInput => ""
  | .console (.io text) => text

/-- No variant is left out. -/
theorem variant_mem (kind : Kind) : kind.variant ∈ variants := by
  cases kind.variant <;> decide

/-- A message is an opening and a detail. -/
theorem message_eq (kind : Kind) : kind.message = kind.variant.opening ++ kind.detail := by
  unfold message
  split
  · next e => cases e <;> rfl
  · next e => cases e <;> rfl

/-- No opening begins with another. -/
theorem prefixFree_opening : PrefixFree variants Variant.opening := by
  decide

/-- The kind with a variant and a detail. -/
def read? (variant : Variant) (detail : String) : Option Kind :=
  match variant with
  | .invalidHandle => (Text.readInteger? detail.toList).map fun n => .heap (.invalidHandle n)
  | .indexOutOfBounds => (Text.readInteger? detail.toList).map fun n => .heap (.indexOutOfBounds n)
  | .negativeSize => (Text.readInteger? detail.toList).map fun n => .heap (.negativeSize n)
  | .endOfInput => some (.console .endOfInput)
  | .io => some (.console (.io detail))

/-- A kind can be read from its variant and its detail. -/
theorem read?_detail (kind : Kind) : read? kind.variant kind.detail = some kind := by
  have hnumeral (n : Int32) : Text.readInteger? (Text.wordText n).toList = some n := by
    rw [Text.wordText, String.toList_ofList, Text.readInteger?_numeral]
  cases kind with
  | heap e => cases e <;> simp [read?, variant, detail, hnumeral]
  | console e => cases e <;> rfl

/-- The message of a kind tells all of it. -/
theorem message_injective : Function.Injective message := by
  intro k k' h
  rw [message_eq, message_eq] at h
  obtain ⟨hvariant, hdetail⟩ := prefixFree_opening.append_inj k.variant_mem k'.variant_mem h
  have hread := k.read?_detail
  rw [hvariant, hdetail, read?_detail] at hread
  exact (Option.some.inj hread).symm

end Kind

/-- The names that a fatal error can have: those of the functions of the host and that of the flush
at the end of a run. -/
def functionNames : List String := Interface.functions.map HostFunction.name ++ ["finish"]

/-- No name with the dot and the blank after it begins with another. -/
theorem prefixFree_functionNames : PrefixFree functionNames (· ++ ". ") := by
  decide

/-- What the message of a fatal error has after its opening. -/
def detail (f : Fatal) : String := f.function ++ ". " ++ f.kind.message

/-- A message is the opening of all fatal errors and a detail. -/
theorem message_eq (f : Fatal) : f.message = "Runtime error in function " ++ f.detail := by
  unfold message detail
  simp only [String.append_assoc]

/-- The detail of a fatal error tells all of it. -/
theorem eq_of_detail_eq {f g : Fatal} (hf : f.function ∈ functionNames)
    (hg : g.function ∈ functionNames) (h : f.detail = g.detail) : f = g := by
  obtain ⟨hfunction, hmessage⟩ := prefixFree_functionNames.append_inj hf hg h
  have hkind := Kind.message_injective hmessage
  rw [show f = ⟨f.function, f.kind⟩ from rfl, hfunction, hkind]

end Fatal

namespace Failure

/-- The variant of a failure, without what it carries. -/
inductive Variant where
  /-- The configuration cannot be used. -/
  | config
  /-- The module is not valid. -/
  | compile
  /-- The module file cannot be read. -/
  | io
  /-- The module imports what the host does not offer. -/
  | unknownImport
  /-- The module cannot be linked, or its start function failed. -/
  | instantiate
  /-- There is no entry point. -/
  | missingEntryPoint
  /-- A host function failed. -/
  | fatal
  /-- The fuel was used up. -/
  | outOfFuel
  /-- The module's own code failed. -/
  | trap
  deriving DecidableEq

/-- All variants. -/
def variants : List Variant :=
  [.config, .compile, .io, .unknownImport, .instantiate, .missingEntryPoint, .fatal, .outOfFuel,
    .trap]

/-- The text that the messages of a variant open with. -/
def Variant.opening : Variant → String
  | .config => "Engine configuration error: "
  | .compile => "Failed to compile module: "
  | .io => "IO error: "
  | .unknownImport => "Unknown import: "
  | .instantiate => "Failed to instantiate module: "
  | .missingEntryPoint => "Entry point not found: "
  | .fatal => "Runtime error in function "
  | .outOfFuel => "Execution ran out of fuel"
  | .trap => "WebAssembly trap: "

/-- The exit status that all failures of a variant lead to. -/
def Variant.exitStatus : Variant → UInt8
  | .config | .compile | .io | .unknownImport | .instantiate | .missingEntryPoint => 2
  | .fatal | .outOfFuel | .trap => 1

/-- The variant of a failure. -/
def variant : Failure → Variant
  | .config _ => .config
  | .compile _ => .compile
  | .io _ => .io
  | .unknownImport _ _ => .unknownImport
  | .instantiate _ => .instantiate
  | .missingEntryPoint _ => .missingEntryPoint
  | .fatal _ => .fatal
  | .outOfFuel => .outOfFuel
  | .trap _ => .trap

/-- What the message of a failure has after its opening. -/
def detail : Failure → String
  | .config text | .compile text | .io text | .instantiate text | .trap text => text
  | .unknownImport module name => module ++ "." ++ name
  | .missingEntryPoint name => name
  | .fatal f => f.detail
  | .outOfFuel => ""

/-- No variant is left out. -/
theorem variant_mem (failure : Failure) : failure.variant ∈ variants := by
  cases failure.variant <;> decide

/-- The exit status of a failure is that of its variant. -/
theorem exitStatus_eq (failure : Failure) : failure.exitStatus = failure.variant.exitStatus := by
  cases failure <;> rfl

/-- A message is an opening and a detail. -/
theorem message_eq (failure : Failure) :
    failure.message = failure.variant.opening ++ failure.detail := by
  cases failure with
  | unknownImport module name =>
    unfold message detail
    simp only [String.append_assoc]
    rfl
  | fatal f => exact f.message_eq
  | _ => rfl

/-- No opening begins with another. -/
theorem prefixFree_opening : PrefixFree variants Variant.opening := by
  decide

/-- A failure that is a fatal error names a function of the host or the flush at the end. -/
def NamesFunction (failure : Failure) : Prop :=
  ∀ f, failure = .fatal f → f.function ∈ Fatal.functionNames

/-- The message of a failure tells its variant and the exit status, and of a fatal error it tells
the function and what went wrong there, with the value or the text that the error carries. -/
theorem identified_of_message_eq {failure failure' : Failure} (hnames : failure.NamesFunction)
    (hnames' : failure'.NamesFunction) (h : failure.message = failure'.message) :
    failure.variant = failure'.variant ∧ failure.exitStatus = failure'.exitStatus ∧
      ∀ f, failure = .fatal f → failure' = .fatal f := by
  rw [message_eq, message_eq] at h
  obtain ⟨hvariant, hdetail⟩ :=
    prefixFree_opening.append_inj failure.variant_mem failure'.variant_mem h
  refine ⟨hvariant, by rw [exitStatus_eq, exitStatus_eq, hvariant], ?_⟩
  rintro f rfl
  cases failure' with
  | fatal g => rw [Fatal.eq_of_detail_eq (hnames f rfl) (hnames' g rfl) hdetail]
  | _ => cases hvariant

/-- Two unknown imports that differ in where the module's name ends have one message, and so one
variant and exit status. Two fatal errors of an access with one message carry one index. -/
theorem identified_of_message_eq_import :
    let failure : Failure := .unknownImport "env" "a.b"
    let failure' : Failure := .unknownImport "env.a" "b"
    let fatal : Fatal := ⟨"get", .heap (.indexOutOfBounds (-5))⟩
    let fatal' : Fatal := ⟨"get", .heap (.indexOutOfBounds (Int32.ofNat 0xFFFFFFFB))⟩
    failure ≠ failure' ∧ failure.message = failure'.message ∧
      (failure.variant = failure'.variant ∧ failure.exitStatus = failure'.exitStatus) ∧
      (fatal.function ∈ Fatal.functionNames ∧ fatal'.function ∈ Fatal.functionNames) ∧
      (Failure.fatal fatal).message = (Failure.fatal fatal').message ∧
      Failure.fatal fatal' = Failure.fatal fatal := by
  intro failure failure' fatal fatal'
  have hfailure : failure.NamesFunction := fun f (h : unknownImport _ _ = .fatal f) => by cases h
  have hfailure' : failure'.NamesFunction := fun f (h : unknownImport _ _ = .fatal f) => by cases h
  have hfatal : (Failure.fatal fatal).NamesFunction := fun f h => by cases h; decide
  have hfatal' : (Failure.fatal fatal').NamesFunction := fun f h => by cases h; decide
  have himport : failure.message = failure'.message := by decide
  have haccess : (Failure.fatal fatal).message = (Failure.fatal fatal').message := by decide
  obtain ⟨hvariant, hstatus, -⟩ := identified_of_message_eq hfailure hfailure' himport
  obtain ⟨-, -, heq⟩ := identified_of_message_eq hfatal hfatal' haccess
  exact ⟨by decide, himport, ⟨hvariant, hstatus⟩, by decide, haccess, heq fatal rfl⟩

end Failure

end ArrayHost
