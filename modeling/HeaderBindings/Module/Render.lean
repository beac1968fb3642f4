import HeaderBindings.Module.Node

/-!
# Writing a module down

Every node has one written form, without a line end at its end, and the module is these forms with
an empty line between them.  A node with nothing to write leaves no trace.

**The constants of an enumeration** are lined up at their equals signs and sorted as lines.  The
longest name sets the width, and it is counted in bytes, so that a name outside of ASCII moves the
column to the right.
-/

set_option autoImplicit false

namespace HeaderBindings

/-- The text for missing documentation. -/
def notAvailable : Text := "N/A"

/-- The documentation, or the text for a missing one. -/
def docOrNotAvailable (doc : Text) : Text := if doc.isEmpty then notAvailable else doc

/-- A docstring with the given indentation, closed on a line of its own. -/
def docstringLines (indent : Nat) (doc : Text) : Text :=
  Text.spaces indent ++ "'''" ++ doc ++ "\n" ++ Text.spaces indent ++ "'''"

/-! ## Enumerations -/

/-- The text filled up with blanks to `width` characters. -/
def Text.padTo (t : Text) (width : Nat) : Text := t ++ Text.spaces (width - t.length)

/-- The width that the names of an enumeration are filled up to. -/
def nameWidth (values : List (Text × Int)) : Nat :=
  (values.map fun v ↦ v.1.byteCount).foldl max 0

/-- The line that makes a member of an enumeration a constant of its class. -/
def constantLine (name : Text) (width : Nat) (value : Text × Int) : Text :=
  name ++ "." ++ value.1.padTo width ++ " = " ++ name ++ "(" ++ Text.ofInt value.2 ++ ")"

/-- The constants of an enumeration, a sorted line for each. -/
def constantLines (name : Text) (values : List (Text × Int)) : List Text :=
  (values.map (constantLine name (nameWidth values))).mergeSort fun a b ↦ (compare a b).isLE

/-- The line of a member in the table of names. -/
def nameEntry (value : Text × Int) : Text :=
  "        " ++ Text.ofInt value.2 ++ ": '" ++ value.1 ++ "',\n"

/-- The class of an enumeration, and the constants after it. -/
def renderEnum (name doc : Text) (values : List (Text × Int)) : Text :=
  "class " ++ name ++ "(_Enum):\n" ++ docstringLines 4 doc ++ "\n    _enum_names_ = \x7b\n" ++
  values.flatMap nameEntry ++ "    \x7d" ++
  if values.isEmpty then ([] : Text)
  else "\n\n" ++ Text.joinWith "\n" (constantLines name values)

/-! ## Classes and functions -/

/-- The class of a group of constants. -/
def renderConstants (name lead : Text) (values : List (Text × Text)) : Text :=
  "class " ++ name ++ ":\n" ++ docstringLines 4 (lead ++ "* constants.") ++
  values.flatMap fun (k, v) ↦ ("\n    " ++ k ++ " = " ++ v : Text)

/-- The class of a struct. -/
def renderStruct (name doc : Text) (fields : List (Text × Text)) : Text :=
  "class " ++ name ++ "(ctypes.Structure):\n" ++ docstringLines 4 doc ++ "\n    _fields_ = (\n" ++
  (fields.flatMap fun (field, type) ↦ ("        ('" ++ field ++ "', " ++ type ++ "),\n" : Text)) ++
  "    )"

/-- A method of a wrapper class. -/
def Method.render (m : Method) : Text :=
  let arguments := Text.joinWith ", " m.arguments
  let call := m.target ++ "(" ++ arguments ++ ")"
  let result := match m.wrapper with
    | some cls => cls ++ "(" ++ call ++ ")"
    | none => call
  "    def " ++ m.name ++ "(" ++ arguments ++ "):\n" ++ docstringLines 8 m.doc ++
  "\n        return " ++ result

/-- The constructor of a wrapper class that does not define one by hand. -/
def constructorText : Text :=
  "    def __new__(cls, ptr=None):\n" ++
  docstringLines 8 "(INTERNAL) ctypes wrapper constructor." ++
  "\n        return _Constructor(cls, ptr)"

/-- A wrapper class. -/
def renderWrapper (name doc : Text) (hasConstructor : Bool) (body : Text)
    (methods : List Method) : Text :=
  "class " ++ name ++ "(_Ctype):\n" ++ docstringLines 4 doc ++
  (if hasConstructor then ("\n\n" ++ constructorText : Text) else []) ++
  (if body.isEmpty then ([] : Text) else "\n\n" ++ body) ++
  methods.flatMap fun m ↦ ("\n\n" ++ m.render : Text)

/-- A function of the library. -/
def renderBinding (name : Text) (arguments : List Text) (doc : Text) (flags : List Nat)
    (types : List Text) : Text :=
  let arguments := Text.joinWith ", " arguments
  let flagTexts := flags.map fun f ↦ ("(" ++ Text.ofNat f ++ ",)" : Text)
  let flagList : Text :=
    if flags.isEmpty then ([] : Text) else Text.joinWith ", " flagTexts ++ ","
  "def " ++ name ++ "(" ++ arguments ++ "):\n" ++ docstringLines 4 (docOrNotAvailable doc) ++
  "\n    f = _Cfunctions.get('" ++ name ++ "', None) or \\\n        _Cfunction('" ++ name ++
  "', (" ++ flagList ++ "),\n                    " ++ Text.joinWith ", " types ++
  ")\n    if not __debug__:  # python -O or -OO\n        global " ++ name ++ "\n        " ++ name ++
  " = f\n    return f(" ++ arguments ++ ")"

/-- The type of a callback. -/
def CallbackType.render (c : CallbackType) : Text :=
  "\n    " ++ c.name ++ " = ctypes.CFUNCTYPE(" ++ Text.joinWith ", " c.types ++ ")\n    " ++
  c.name ++ ".__doc__ = '''" ++ c.doc ++ "\n    '''"

/-! ## Nodes -/

/-- The written form of a node. -/
def Node.render : Node → Text
  | verbatim t => t.trimEnd
  | comment lines => Text.joinWith "\n" (lines.map fun line ↦ ("# " ++ line : Text))
  | constants name lead values => renderConstants name lead values
  | enum name doc values => renderEnum name doc values
  | struct name doc fields => renderStruct name doc fields
  | handle name doc =>
    "class " ++ name ++ "(ctypes.c_void_p):\n" ++ docstringLines 4 doc ++ "\n    pass"
  | wrapper name doc hasConstructor body methods =>
    renderWrapper name doc hasConstructor body methods
  | binding name arguments doc flags types => renderBinding name arguments doc flags types
  | callbacks types =>
    "class CallbackDecorators(object):\n" ++
    "    \"Class holding various method decorators for callback functions.\"" ++
    types.flatMap CallbackType.render ++ "\n\ncb = CallbackDecorators"

/-- The written form of a module. -/
def renderModule (nodes : List Node) : Text :=
  Text.joinWith "\n\n" ((nodes.map Node.render).filter fun block ↦ !block.isEmpty) ++ "\n"

end HeaderBindings
