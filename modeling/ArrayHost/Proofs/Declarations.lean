import ArrayHost.Interface
import Mathlib.Data.List.Infix

/-!
# What a declaration tells

The declaration of a function has its name twice, as it is. A name may hold quotes, blanks and
parentheses, and so what looks like the rest of a declaration, and where it ends cannot be read off.

Two functions with one declaration are equal nevertheless (`declaration_inj`). One of their names
begins the other. What the longer one has more begins with the quote that ends the shorter one, and
it stands at the end of the declaration as well, after the second name of the other function. Only a
type stands there, and a type has no quote (`quote_not_mem_closing`), so there is nothing more
(`eq_nil_of_written_twice`). The types are then one text, and its length is that of one type only
(`eq_of_length_closing_eq`).
-/

namespace ArrayHost.HostFunction

/-- A name is written twice with a mark between, and in the same text so is a name that continues
it. What follows the first name does not hold the character that the mark begins with. Then it is
continued by nothing. -/
theorem eq_nil_of_written_twice {c : Char} {mark name more last last' : List Char} (hc : c ∉ last)
    (h : name ++ (c :: mark ++ (name ++ last)) =
      (name ++ more) ++ (c :: mark ++ ((name ++ more) ++ last'))) : more = [] := by
  cases more with
  | nil => rfl
  | cons d more =>
    rw [List.append_assoc, List.append_cancel_left_eq] at h
    have hd : c = d := (List.cons.inj h).1
    have hlength := congrArg List.length h
    simp only [List.length_append, List.length_cons] at hlength
    -- What the second name has more stands twice in its text, so the end after the first name is
    -- long enough to hold it.
    have hlast : last <:+ c :: mark ++ (name ++ last) :=
      ⟨c :: mark ++ name, by rw [List.append_assoc]⟩
    have hmore : (d :: more) ++ last' <:+ c :: mark ++ (name ++ last) :=
      ⟨(d :: more) ++ (c :: mark ++ name), by rw [h]; simp only [List.append_assoc]⟩
    have hle : ((d :: more) ++ last').length ≤ last.length := by
      rw [List.length_append, List.length_cons]
      omega
    have hsuffix := List.suffix_of_suffix_length_le hmore hlast hle
    exact absurd (hsuffix.subset (hd ▸ List.mem_cons_self)) hc

/-- What a declaration has after the second name: the type, and the ends of what was opened. -/
def closing (f : HostFunction) : String :=
  let params := if f.params = 0 then "" else
    " (param" ++ String.join (List.replicate f.params " i32") ++ ")"
  let result := if f.returnsValue then " (result i32)" else ""
  params ++ result ++ "))"

/-- A declaration has the name twice, and nothing else in it depends on the name. -/
theorem declaration_eq_append (module : String) (f : HostFunction) : f.declaration module =
    "(import \"" ++ module ++ "\" \"" ++ (f.name ++ ("\" (func $" ++ (f.name ++ f.closing))) := by
  unfold declaration closing
  simp only [String.append_assoc]

/-- There is no quote after the second name. -/
theorem quote_not_mem_closing (f : HostFunction) : '"' ∉ f.closing.toList := by
  unfold closing
  split <;> split <;> simp

/-- The length of what follows the second name. -/
theorem length_closing (f : HostFunction) : f.closing.length =
    (if f.params = 0 then 0 else 4 * f.params + 8) + (if f.returnsValue then 13 else 0) + 2 := by
  have hopening : " (param".length = 7 := rfl
  have hparam : " i32".length = 4 := rfl
  have hend : ")".length = 1 := rfl
  have hresult : " (result i32)".length = 13 := rfl
  have hparams : (" (param" ++ String.join (List.replicate f.params " i32") ++ ")").length =
      4 * f.params + 8 := by
    rw [String.length_append, String.length_append, String.length_join, List.map_replicate,
      List.sum_replicate_nat, hopening, hparam, hend]
    omega
  unfold closing
  rw [String.length_append, String.length_append, apply_ite String.length,
    apply_ite String.length, hparams, hresult]
  rfl

/-- The length of what follows the second name tells the number of parameters and whether there is a
result: a parameter takes four characters, and a result takes one more than a multiple of four. -/
theorem eq_of_length_closing_eq {f g : HostFunction} (h : f.closing.length = g.closing.length) :
    f.params = g.params ∧ f.returnsValue = g.returnsValue := by
  rw [length_closing, length_closing] at h
  grind

variable {module : String} {f g : HostFunction}

/-- Of two names in one declaration, the one that begins the other is the other. -/
theorem name_eq_of_begins (h : f.declaration module = g.declaration module)
    (hle : f.name.toList <+: g.name.toList) : f.name = g.name := by
  rw [declaration_eq_append, declaration_eq_append, String.append_right_inj] at h
  have hchars := congrArg String.toList h
  simp only [String.toList_append] at hchars
  obtain ⟨more, hmore⟩ := hle
  rw [← hmore] at hchars
  have hnil : more = [] := eq_nil_of_written_twice f.quote_not_mem_closing hchars
  rw [hnil, List.append_nil] at hmore
  exact String.toList_inj.1 hmore

/-- The declaration of a function tells its name, the number of its parameters and whether it has a
result. -/
theorem declaration_inj : f.declaration module = g.declaration module ↔ f = g := by
  refine ⟨fun h => ?_, fun h => h ▸ rfl⟩
  have hrest := h
  rw [declaration_eq_append, declaration_eq_append, String.append_right_inj] at hrest
  have hname : f.name = g.name := by
    have hchars := congrArg String.toList hrest
    rw [String.toList_append, String.toList_append (s := g.name)] at hchars
    rcases List.prefix_or_prefix_of_prefix ⟨_, hchars⟩ (List.prefix_append _ _) with hle | hle
    · exact name_eq_of_begins h hle
    · exact (name_eq_of_begins h.symm hle).symm
  rw [hname, String.append_right_inj, String.append_right_inj, String.append_right_inj] at hrest
  obtain ⟨hparams, hreturns⟩ := eq_of_length_closing_eq (congrArg String.length hrest)
  rw [show f = ⟨f.name, f.params, f.returnsValue⟩ from rfl, hname, hparams, hreturns]

end ArrayHost.HostFunction
