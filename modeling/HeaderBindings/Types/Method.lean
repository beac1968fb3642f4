import HeaderBindings.Types.TypeTable

/-!
# Methods of wrapper classes

A function becomes a method under a shorter name, and its documentation mentions other functions
of the class by the names of their methods.
-/

set_option autoImplicit false

namespace HeaderBindings.TypeTable

/-- The name of a function as a method of a class: without what all functions of the class begin
with, or else without what all functions begin with, and starting in lower case. -/
def methodName (table : TypeTable) (cls function : Text) : Text :=
  let ofClass := table.methodLeads[cls]?.bind fun lead ↦
    (function.afterLead? lead).filter (!·.isEmpty)
  let ofLibrary := (function.afterLead? table.functionLead).filter (!·.isEmpty)
  lowerFirst ((ofClass.or ofLibrary).getD function)

/-- A character that a name goes on with. -/
def isNameChar (c : Char) : Bool := isLetterOrNumber c || c == '_'

/-- What follows the name at an occurrence of `lead` is shorter than the text, unless nothing comes
before the occurrence and the name is empty. -/
theorem length_afterName {lead before after t : Text}
    (h : t.splitAtFirst? lead = some (before, after))
    (hn : ¬(before = [] ∧ (lead ++ after).takeWhile isNameChar = [])) :
    ((lead ++ after).dropWhile isNameChar).length < t.length := by
  have ht := congrArg List.length (Text.splitAtFirst?_eq_some h)
  have hname := congrArg List.length
    (List.takeWhile_append_dropWhile (p := isNameChar) (l := lead ++ after))
  have hpos : 0 < before.length ∨ 0 < ((lead ++ after).takeWhile isNameChar).length := by
    simpa only [List.length_pos_iff] using Classical.not_and_iff_not_or_not.1 hn
  simp only [List.length_append] at ht hname
  omega

/-- Linking `rest` when `prev` is the last character written before it, if any.  There is no result
if an occurrence of `lead` right at the front is not the beginning of a name, which nothing gets
past. -/
def linkFrom (table : TypeTable) (cls lead : Text) (prev : Option Char) (rest : Text) :
    Option Text :=
  match h : rest.splitAtFirst? lead with
  | none => some rest
  | some (before, after) =>
    let name := (lead ++ after).takeWhile isNameChar
    if hn : before = [] ∧ name = [] then none
    else
      have := length_afterName h hn
      let prev := before.getLast?.or prev
      let linked :=
        if lead.length < name.length ∧ !prev.any isNameChar then table.methodName cls name else name
      (linkFrom table cls lead (linked.getLast?.or prev) ((lead ++ after).dropWhile isNameChar)).map
        fun tail ↦ before ++ linked ++ tail
termination_by rest.length

/-- The text with the functions of a class mentioned by the names of their methods. -/
def linkMethods (table : TypeTable) (cls t : Text) : Option Text :=
  match table.methodLeads[cls]? with
  | some lead => if lead.isEmpty then some t else linkFrom table cls lead none t
  | none => some t

end HeaderBindings.TypeTable
