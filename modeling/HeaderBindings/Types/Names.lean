import HeaderBindings.Text.Basic

/-!
# Names of classes and of basic types

Types of the header become classes of the module.  A class is named after its type, without the
words that all types of the library begin with.
-/

set_option autoImplicit false

namespace HeaderBindings

/-! ## Classes -/

/-- A part of a name with its first letter in upper case and the rest in lower case. -/
def titleCase : Text → Text
  | [] => []
  | c :: rest => upperCase c ++ rest.flatMap lowerCase

/-- What follows the first of the given words that the name properly begins with. -/
def withoutLead (leads : List Text) (name : Text) : Text :=
  (leads.findSome? fun lead ↦ (name.afterLead? lead).filter (!·.isEmpty)).getD name

/-- The name of the class for a type: in title case if the type's name has parts, which are then
joined, and otherwise with at most a first letter changed to upper case. -/
def className (leads : List Text) (native : Text) : Text :=
  let rest := withoutLead leads native
  if '_' ∈ rest then (rest.splitOn '_').flatMap titleCase
  else if rest.head?.any isLowercase then upperFirst rest
  else rest

/-! ## Descriptors of basic types -/

/-- The descriptor for a type that has none of its own. -/
def anyPointer : Text := "ctypes.c_void_p"

/-- The beginning of a descriptor for a pointer. -/
def pointerLead : Text := "ctypes.POINTER("

/-- The descriptor for a pointer to what has the given descriptor. -/
def pointerTo (descriptor : Text) : Text := pointerLead ++ descriptor ++ ")"

/-- The types that need no declaration, with their descriptors. -/
def basicTypes : List (Text × Text) :=
  List.map (fun entry : String × String ↦ (entry.1.toList, entry.2.toList))
  [("CALLBACK", "ctypes.c_void_p"),
   ("bool", "ctypes.c_bool"),
   ("char", "ctypes.c_char"),
   ("char*", "ctypes.c_char_p"),
   ("char**", "ListPOINTER(ctypes.c_char_p)"),
   ("double", "ctypes.c_double"),
   ("double*", "ctypes.POINTER(ctypes.c_double)"),
   ("float", "ctypes.c_float"),
   ("float*", "ctypes.POINTER(ctypes.c_float)"),
   ("int", "ctypes.c_int"),
   ("int*", "ctypes.POINTER(ctypes.c_int)"),
   ("int16_t", "ctypes.c_int16"),
   ("int32_t", "ctypes.c_int32"),
   ("int64_t", "ctypes.c_int64"),
   ("int8_t", "ctypes.c_int8"),
   ("long", "ctypes.c_long"),
   ("longlong", "ctypes.c_longlong"),
   ("short", "ctypes.c_short"),
   ("size_t", "ctypes.c_size_t"),
   ("uint16_t", "ctypes.c_uint16"),
   ("uint32_t", "ctypes.c_uint32"),
   ("uint64_t", "ctypes.c_uint64"),
   ("uint8_t", "ctypes.c_uint8"),
   ("unsigned", "ctypes.c_uint"),
   ("unsigned*", "ctypes.POINTER(ctypes.c_uint)"),
   ("unsignedchar", "ctypes.c_ubyte"),
   ("unsignedchar*", "ctypes.POINTER(ctypes.c_ubyte)"),
   ("unsignedint", "ctypes.c_uint"),
   ("unsignedint*", "ctypes.POINTER(ctypes.c_uint)"),
   ("unsignedlong", "ctypes.c_ulong"),
   ("unsignedlonglong", "ctypes.c_ulonglong"),
   ("unsignedshort", "ctypes.c_ushort"),
   ("void", "None"),
   ("void*", "ctypes.c_void_p"),
   ("void**", "ListPOINTER(ctypes.c_void_p)")]

end HeaderBindings
