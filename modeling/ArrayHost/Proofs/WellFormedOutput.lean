import ArrayHost.Console.Sinks
import ArrayHost.Proofs.EncodedText
import ArrayHost.Proofs.HostRuns
import ArrayHost.Proofs.LimitedOutput

/-!
# Output is text

An output without a limit holds the text that was printed, in UTF-8 and with nothing before, between
or behind it (`Spells`). Each operation adds the bytes of its own text and no others
(`written_perform`), and the bytes of texts one after another are those of one text
(`printedBytes_eq`). A module prints through its host calls alone, so what a run leaves is spelled
by the texts of its host calls (`Leads.printedText_eq`).
-/

namespace ArrayHost

namespace Console

/-- The bytes are those of the text. -/
structure Spells (bytes : Array UInt8) (text : List Char) : Prop where
  /-- The text has these bytes in UTF-8. -/
  encode_eq : Text.encode text = bytes.toList
  /-- The bytes are well-formed UTF-8. -/
  isValid : (ByteArray.mk bytes).IsValidUTF8
  /-- A sink that holds the bytes has the text for its contents. -/
  contents : ∀ (sinks : Sinks) (k : ℕ), sinks.bytes? k = some bytes → sinks.contents? k = some text

/-- The bytes of a text spell it. -/
theorem Spells.of_encode {bytes : Array UInt8} {text : List Char}
    (h : Text.encode text = bytes.toList) : Spells bytes text where
  encode_eq := h
  isValid := by
    refine .intro text (ByteArray.ext ?_)
    rw [List.utf8Encode, List.data_toByteArray]
    exact congrArg List.toArray h.symm
  contents sinks k hbytes := by
    rw [Sinks.contents?, hbytes, ← Text.decode_encode text, h]
    rfl

end Console

open Console (Spells)

namespace Session

/-- The texts that are printed in a trace, one after another. -/
def printedText (t : List Step) : List Char :=
  (t.filterMap Step.printed?).flatten

/-- What is printed depends on the texts of the steps alone. -/
theorem printedText_congr {t t' : List Step} (h : t.map Step.printed? = t'.map Step.printed?) :
    printedText t = printedText t' := by
  have htexts (steps : List Step) :
      steps.filterMap Step.printed? = (steps.map Step.printed?).filterMap id := by
    rw [List.filterMap_map, Function.id_comp]
  rw [printedText, printedText, htexts, htexts, h]

/-- The bytes that are printed in a trace are those of one text. -/
theorem printedBytes_eq (t : List Step) : printedBytes t = Text.encode (printedText t) := by
  induction t with
  | nil => rfl
  | cons st t ih =>
    have hcons : printedBytes (st :: t) = st.printed?.elim [] Text.encode ++ printedBytes t :=
      List.flatMap_cons
    rw [hcons, ih]
    cases htext : st.printed? with
    | none => simp [printedText, htext]
    | some text => simp [printedText, htext, Text.encode_append]

section

variable {s t : Session}

/-- An operation adds the bytes of its text to an output without a limit. -/
theorem written_perform (hcapacity : s.console.output.capacity = none) (op : Operation) :
    (s.perform op).2.console.output.written.toList =
      s.console.output.written.toList ++ (s.printed? op).elim [] Text.encode := by
  cases htext : s.printed? op with
  | none =>
    obtain ⟨m, houtput⟩ := output_perform_of_printed?_eq_none htext
    rw [houtput, Option.elim_none, List.append_nil]
  | some text =>
    rw [(perform_of_unlimited hcapacity htext).2, Option.elim_some]
    exact Array.toList_appendList

/-- A sequence of operations adds the bytes of its texts to an output without a limit. -/
theorem written_performAll (hcapacity : s.console.output.capacity = none) (ops : List Operation) :
    (s.performAll ops).console.output.written.toList =
      s.console.output.written.toList ++ printedBytes (s.trace ops) := by
  induction ops generalizing s with
  | nil => simp [trace, printedBytes]
  | cons op ops ih =>
    have hstep : printedBytes (s.trace (op :: ops)) =
        (s.printed? op).elim [] Text.encode ++ printedBytes ((s.perform op).2.trace ops) :=
      List.flatMap_cons
    rw [performAll_cons, ih (by rw [capacity_perform, hcapacity]), written_perform hcapacity, hstep,
      List.append_assoc]

/-- An output without a limit that was empty spells what is printed to it. -/
theorem spells_performAll (hcapacity : s.console.output.capacity = none)
    (hwritten : s.console.output.written = #[]) (ops : List Operation) :
    Spells (s.performAll ops).console.output.written (printedText (s.trace ops)) := by
  refine .of_encode ?_
  rw [written_performAll hcapacity, hwritten, List.nil_append, printedBytes_eq]

/-- Sessions that are alike print the same texts. -/
theorem Alike.printed_eq (h : s.Alike t) (ops : List Operation) :
    (s.trace ops).map Step.printed? = (t.trace ops).map Step.printed? := by
  induction ops generalizing s t with
  | nil => rfl
  | cons op ops ih =>
    have hfirst : Step.printed? ⟨s, op⟩ = Step.printed? ⟨t, op⟩ := printed?_congr h.heap_eq
    simp only [trace, List.map_cons, hfirst, ih (h.perform op).2]

end

end Session

open Session (Leads Step printedText)

/-- A host call as a step of a session. -/
def HostCall.step (x : HostCall) : Step := ⟨x.session, x.operation⟩

/-- Host calls print the texts that they print when they are carried out by themselves. -/
theorem Session.Leads.printedText_eq {s t : Session} {calls : List HostCall} {fatal? : Option Fatal}
    (h : s.Leads calls fatal? t) :
    printedText (s.trace (calls.map HostCall.operation)) =
      printedText (calls.map HostCall.step) := by
  refine printedText_congr ?_
  induction h with
  | nil => rfl
  | @ok s u t c _ calls _ hs _ _ ih =>
    have hfirst : s.printed? (.call c) = u.printed? (.call c) := printed?_congr hs.heap_eq
    have hrest := (hs.call c).2.printed_eq (calls.map HostCall.operation)
    exact List.cons_eq_cons.2 ⟨hfirst, hrest.trans ih⟩
  | @error s u t c _ hs _ _ =>
    have hfirst : s.printed? (.call c) = u.printed? (.call c) := printed?_congr hs.heap_eq
    exact congrArg (· :: []) hfirst

namespace Host

/-- What a run leaves on an output without a limit that was empty spells what its host calls
print. -/
theorem spells_run {h : Host} {n : ℕ} {m : Wasm.Module} {s t : Session}
    {result : Except Failure Unit} (hcapacity : s.console.output.capacity = none)
    (hwritten : s.console.output.written = #[]) (hrun : h.run n m s = some (result, t)) :
    Spells t.console.output.written (printedText ((h.hostCalls n m s).map HostCall.step)) := by
  obtain ⟨executed, u, hexecute, -, rfl⟩ := exists_execute_of_run hrun
  obtain ⟨fatal?, hleads⟩ := leads_execute hexecute
  -- The flush at the end writes nothing.
  have hu : u.finish.2.console.output.written = u.console.output.written := rfl
  rw [hu, hleads.alike_performAll.console_eq, ← hleads.printedText_eq]
  exact Session.spells_performAll hcapacity hwritten _

/-- The text that a scripted run answers is what it left on the output of its session. -/
theorem run_of_runScripted {source : Option Wasm.Source} {input : List UInt8} {text : List Char}
    {log : List Record} (h : runScripted source input = some (.ok text, log)) :
    ∃ m t, standard.load source = .ok m ∧
      standard.run maxSteps m (.start (.scripted input)) = some (.ok (), t) ∧
      text = Text.decode t.console.output.written.toList := by
  unfold runScripted at h
  split at h
  · cases h
  · next m hload =>
    obtain ⟨⟨result, t⟩, hrun, hanswer⟩ := Option.map_eq_some_iff.1 h
    cases result with
    | error e => cases hanswer
    | ok =>
      cases hanswer
      exact ⟨m, t, hload, hrun, rfl⟩

/-- Output is text. Without a limit, an output that was empty spells the printed texts one after
another, whatever operations are carried out on its session and whatever module runs there: its
bytes are well-formed, and the contents of a sink that holds them lose nothing. When a scripted run
succeeds, the text that it answers is spelled by the bytes that the run wrote, and is the text that
its host calls printed. -/
theorem output_spells_printed_text (s : Session) (hcapacity : s.console.output.capacity = none)
    (hwritten : s.console.output.written = #[]) :
    (∀ ops, Spells (s.performAll ops).console.output.written (printedText (s.trace ops))) ∧
    (∀ (h : Host) n m result t, h.run n m s = some (result, t) →
      Spells t.console.output.written (printedText ((h.hostCalls n m s).map HostCall.step))) ∧
    ∀ source input text log, runScripted source input = some (.ok text, log) →
      ∃ m t, standard.load source = .ok m ∧
        standard.run maxSteps m (.start (.scripted input)) = some (.ok (), t) ∧
        Spells t.console.output.written text ∧ text = printedText
          ((standard.hostCalls maxSteps m (.start (.scripted input))).map HostCall.step) := by
  refine ⟨Session.spells_performAll hcapacity hwritten,
    fun h n m result t => spells_run hcapacity hwritten, fun source input text log hscripted => ?_⟩
  obtain ⟨m, t, hload, hrun, htext⟩ := run_of_runScripted hscripted
  have hspells := spells_run rfl rfl hrun
  -- The decoder reads back the text that the host calls printed.
  rw [← hspells.encode_eq, Text.decode_encode] at htext
  refine ⟨m, t, hload, hrun, ?_, htext⟩
  rw [htext]
  exact hspells

/-- A module that prints an array of a letter and a surrogate, and the number of the array. -/
def surrogateSource : Wasm.Source where
  imports := Wasm.Source.hostImports
  globals := []
  funcs := [⟨"main", ⟨[], []⟩, [],
    .instr (.const32 0) <| .call "new" <| .instr .drop <|
    .instr (.const32 0) <| .instr (.const32 0xE9) <| .call "add" <| .instr .drop <|
    .instr (.const32 0) <| .instr (.const32 0xD800) <| .call "add" <| .instr .drop <|
    .instr (.const32 0) <| .call "prints" <| .instr .drop <|
    .instr (.const32 0) <| .call "printi" <| .instr .drop .done⟩]
  exports := [⟨"main", "main", .func⟩]
  start := none

/-- What is spelled by operations one of which fails, and by the run of a module: numbers without a
character stand there as `U+FFFD`. -/
theorem output_spells_printed_text_surrogate :
    let s := Session.start (.scripted [])
    let ops : List Session.Operation := [.call (.printc (-1)), .call (.prints 0),
      .call (.printi (-2147483648)), .call .println, .call (.printc 0x110000)]
    s.console.output.capacity = none ∧ s.console.output.written = #[] ∧
      Spells (s.performAll ops).console.output.written "\uFFFD-2147483648\n\uFFFD".toList ∧
      (∃ log m t, runScripted (some surrogateSource) [] = some (.ok "é\uFFFD0".toList, log) ∧
        standard.run maxSteps m s = some (.ok (), t) ∧
        Spells t.console.output.written "é\uFFFD0".toList) := by
  intro s ops
  obtain ⟨hops, -, hscripted⟩ := output_spells_printed_text s rfl rfl
  have htext : printedText (s.trace ops) = "\uFFFD-2147483648\n\uFFFD".toList := by decide +kernel
  have hanswer : (runScripted (some surrogateSource) []).map Prod.fst =
    some (.ok "é\uFFFD0".toList) := by decide +kernel
  obtain ⟨⟨answer, log⟩, hrun, rfl⟩ := Option.map_eq_some_iff.1 hanswer
  obtain ⟨m, t, -, ht, hspells, -⟩ := hscripted _ _ _ _ hrun
  refine ⟨rfl, rfl, ?_, log, m, t, hrun, ht, hspells⟩
  rw [← htext]
  exact hops ops

end Host

end ArrayHost
