import HeaderBindings.Module.Render
import HeaderBindings.Overrides
import HeaderBindings.Types.Method

/-!
# The sections of a module

Each section of a generated module is a list of nodes, made from the declarations of the headers,
the table of types and the classes written by hand.  What a section leaves out, another one has:
a class written by hand or one that wraps functions is no plain struct, and a function that is no
method of any class is reported.
-/

set_option autoImplicit false

namespace HeaderBindings

/-- What a module is generated from. -/
structure Sources where
  conventions : Conventions
  declarations : Declarations
  types : TypeTable
  overrides : Overrides

namespace Sources

/-! ## Constants and enumerations -/

/-- The class name for a group of constants. -/
def groupClass (group : Text) : Text := upperFirst (group.map Char.toLower)

/-- The name of a constant in its class: no digit comes first. -/
def constantName (rest : Text) : Text := if rest.head?.any Char.isDigit then '_' :: rest else rest

/-- The constants of one group, whose names begin with `lead`. -/
def constantsOf (s : Sources) (lead : Text) : List (Text × Text) :=
  s.declarations.constants.toList.filterMap fun (name, value) ↦
    ((name.afterLead? lead).filter (!·.isEmpty)).map fun rest ↦ (constantName rest, value)

/-- A class for each group of constants that has any. -/
def constantGroups (s : Sources) : List Node :=
  s.conventions.constantGroups.filterMap fun group ↦
    let lead := s.conventions.constantLead ++ group ++ "_"
    let values := s.constantsOf lead
    if values.isEmpty then none else some (.constants (groupClass group) lead values)

/-- The class that all enumerations are derived from. -/
def enumBase : Text := Text.joinWith "\n"
  ["class _Enum(ctypes.c_ulong):",
   "    '''(INTERNAL) Base class for generated enumerations.",
   "    '''",
   "    _enum_names_ = \x7b\x7d",
   "",
   "    def __str__(self):",
   "        n = self._enum_names_.get(self.value, '') or ('?(%r)' % (self.value,))",
   "        return '.'.join((self.__class__.__name__, n))",
   "",
   "    def __repr__(self):",
   "        return '.'.join((self.__class__.__module__, self.__str__()))",
   "",
   "    def __eq__(self, other):",
   "        if isinstance(other, _Enum):",
   "            return self.value == other.value",
   "        return isinstance(other, int) and self.value == other",
   "",
   "    def __ne__(self, other):",
   "        return not self.__eq__(other)",
   "",
   "    def __hash__(self):",
   "        return hash(self.value)"]

/-- The base class and a class for each enumeration; nothing if there are none. -/
def enums (s : Sources) : List Node :=
  if s.declarations.enums.isEmpty then []
  else
    .verbatim enumBase :: s.declarations.enums.map fun e ↦
      .enum (s.types.classOf e.name) (docOrNotAvailable e.doc)
        (e.members.map fun m ↦ (m.name, m.value))

/-! ## Structs and handles -/

/-- The class of a struct, unless it is written by hand. -/
def structNode? (s : Sources) (t : Struct) : Option Node :=
  let name := s.types.classOf t.name
  if s.overrides.contains name then none
  else
    some (.struct name (docOrNotAvailable t.doc)
      (t.fields.map fun f ↦ (f.name, s.types.descriptor f.type)))

/-- The class of a handle, unless it is written by hand or wraps functions. -/
def handleNode? (s : Sources) (native : Text) : Option Node :=
  let name := s.types.classOf native
  if s.overrides.contains name || s.types.wrapperClasses.contains name then none
  else some (.handle name "Private object.")

/-- The classes of structs, then those of handles. -/
def structs (s : Sources) : List Node :=
  s.declarations.structs.filterMap s.structNode? ++ s.declarations.handles.filterMap s.handleNode?

/-! ## Wrapper classes -/

/-- The wrapper classes, each once and in order. -/
def wrapperClasses (s : Sources) : List Text :=
  (Std.TreeSet.ofList s.types.wrapperClasses compare).toList

/-- The descriptor of a function's first parameter. -/
def receiver? (s : Sources) (f : Prototype) : Option Text :=
  f.params.head?.bind fun p ↦ s.types.resolve? p.type

/-- The functions that become methods of a class. -/
def functionsOf (s : Sources) (cls : Text) : List Prototype :=
  s.declarations.functions.filter fun f ↦ s.receiver? f == some cls

/-- The class that a descriptor names if it is a pointer to a reference. -/
def referencedClass? (descriptor : Text) : Option Text :=
  (descriptor.afterLead? pointerLead).bind (·.beforeTail? "Reference)")

/-- The documentation of a method, if mentions of other functions can be linked: that of its
function without the first documented parameter, and the types of all parameters. -/
def methodDoc? (s : Sources) (cls : Text) (f : Prototype) : Option Text :=
  (s.types.linkMethods cls (f.docstring 1 8)).map fun doc ↦
    (if doc.isEmpty then doc else doc ++ "\n        ") ++ "Parameter types: " ++
      Text.joinWith ", " (f.params.map fun p ↦ s.types.descriptor p.type)

/-- The method of a class for a function.  The result is wrapped into a class if exactly one
parameter refers to it. -/
def method? (s : Sources) (cls : Text) (f : Prototype) : Option Method :=
  (s.methodDoc? cls f).map fun doc ↦
    { name := s.types.methodName cls f.name
      arguments := "self" :: f.arguments 1
      doc
      target := f.name
      wrapper :=
        match f.params.filterMap fun p ↦ referencedClass? (s.types.descriptor p.type) with
        | [only] => some only
        | _ => none }

/-- The functions of a class whose methods are not written by hand. -/
def generatedFunctions (s : Sources) (cls : Text) : List Prototype :=
  (s.functionsOf cls).filter fun f ↦
    !s.overrides.definesMethod cls (s.types.methodName cls f.name)

/-- Code without the blank lines before it and the blanks behind it. -/
def withoutBlankEnds (code : Text) : Text :=
  Text.trimEnd (code.rawLines.dropWhile Text.isBlank).flatten

/-- A wrapper class. -/
def wrapper? (s : Sources) (cls : Text) : Option Node :=
  ((s.generatedFunctions cls).mapM (s.method? cls)).map fun methods ↦
    .wrapper cls (docOrNotAvailable (s.overrides.docFor cls).trim)
      (!s.overrides.definesMethod cls "__new__") (withoutBlankEnds (s.overrides.codeFor cls))
      methods

/-- The wrapper classes, if the documentation of their methods can be linked. -/
def wrappers? (s : Sources) : Option (List Node) := s.wrapperClasses.mapM s.wrapper?

/-- The names of the functions that belong to a wrapper class, in order. -/
def wrappedNames (s : Sources) : List Text :=
  (Std.TreeSet.ofList ((s.wrapperClasses.flatMap s.functionsOf).map (·.name)) compare).toList

/-! ## Functions and callbacks -/

/-- The descriptors of a function's result and parameters. -/
def descriptors (s : Sources) (f : Prototype) : List Text :=
  (f.type :: f.params.map (·.type)).map s.types.descriptor

/-- The binding of a function. -/
def binding (s : Sources) (f : Prototype) : Node :=
  .binding f.name (f.arguments 0) (f.docstring 0 4) (f.params.map (·.direction.code))
    (s.descriptors f)

/-- A binding for every function. -/
def bindings (s : Sources) : List Node :=
  .comment ["Decorated C API functions"] :: s.declarations.functions.map s.binding

/-- The documentation of a callback. -/
def callbackDoc (f : Prototype) : Text := docOrNotAvailable (f.docstring 0 4)

/-- A class for every callback, and all their types; nothing if there are none. -/
def callbacks (s : Sources) : List Node :=
  let found := s.declarations.callbacks
  if found.isEmpty then []
  else
    (found.map fun f ↦ Node.handle (s.types.classOf f.name) (callbackDoc f)) ++
    [.callbacks (found.map fun f ↦ ⟨s.types.classOf f.name, s.descriptors f, callbackDoc f⟩)]

/-- A comment that lists functions; nothing for an empty list. -/
def functionReport (what : Text) (names : List Text) : List Node :=
  if names.isEmpty then []
  else
    [.comment ((Text.ofNat names.length ++ " function(s) " ++ what ++ ":") ::
      names.map fun n ↦ ' ' :: n)]

/-- The report on the functions that were left out and on those that belong to no wrapper
class, given the names that do. -/
def unwrapped (s : Sources) (wrapped : List Text) : List Node :=
  let loose := (s.declarations.functions.filter fun f ↦ f.name ∉ wrapped).map fun f ↦
    f.name ++ " (" ++ (s.receiver? f).getD "None" ++ ")"
  functionReport "blacklisted" s.declarations.excluded.keys ++
  functionReport "not wrapped as methods" (loose.mergeSort fun a b ↦ (compare a b).isLE)

end Sources

end HeaderBindings
