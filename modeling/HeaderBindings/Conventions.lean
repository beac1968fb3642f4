import HeaderBindings.Text.Basic

/-!
# The conventions of a library

Headers of different libraries are written alike but for a few names: the macro in front of an
exported function, the words that types and functions begin with, and so on.  They are gathered
here, and those of one library are the defaults.
-/

set_option autoImplicit false

namespace HeaderBindings

/-- The names that a library's headers are written with, and what to generate from them. -/
structure Conventions where
  /-- The word in front of an exported function. -/
  exportMacro : Text := "XN_C_API"
  /-- An exported function whose first line holds this word is left out. -/
  deprecatedMarker : Text := "DEPRECATED"
  /-- The word in front of the star of a callback. -/
  callbackTag : Text := "XN_CALLBACK_TYPE"
  /-- What the name of a constant begins with. -/
  constantLead : Text := "XN_"
  /-- The groups of constants that become classes, named as in the constants. -/
  constantGroups : List Text := ["PROP", "CAPABILITY"]
  /-- What the name of a type may begin with and the name of a class does not. -/
  typeLeads : List Text := ["Xn", "XN"]
  /-- What the name of a function begins with and the name of a method does not. -/
  functionLead : Text := "xn"
  /-- The classes that functions become methods of. -/
  wrapperClasses : List Text := []
  /-- The functions to leave out. -/
  excluded : List Text := []
  /-- The types that only parameters for results have. -/
  outputTypes : List Text := ["int*", "unsigned*", "XnEnumerationErrors*"]

end HeaderBindings
