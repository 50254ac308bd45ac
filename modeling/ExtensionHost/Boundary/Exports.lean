import ExtensionHost.Boundary.Arguments
import ExtensionHost.Boundary.Objects
import ExtensionHost.Boundary.Scalars
import ExtensionHost.Boundary.Sequences

/-!
# `ExtensionHost.Boundary.Exports`: the functions of the boundary by name

Foreign code finds a function by its name. What it passes and what it gets
back depends on the kind of function.
-/

set_option autoImplicit false

namespace ExtensionHost.Boundary

/-- A function of the boundary, by what it takes and gives. -/
inductive Export
  /-- An object that is there for good, passed without a reference. -/
  | constant (object : Ref)
  /-- Boxes an integer. -/
  | ofInteger (run : Int → Host Pointer)
  /-- Boxes a float. -/
  | ofReal (run : Double → Host Pointer)
  /-- Boxes a text. -/
  | ofText (run : RawText → Host Pointer)
  /-- Makes a container of a length. -/
  | ofLength (run : Int → Host Pointer)
  | toInteger (run : Pointer → Host Int)
  | toReal (run : Pointer → Host Double)
  | toText (run : Pointer → Host RawText)
  | test (run : Pointer → Host Bool)
  /-- Counts the references to an object. -/
  | count (run : Pointer → Host Int)
  /-- Gives an integer through an output. -/
  | throughInteger (run : Pointer → Option Int → Host (Int × Option Int))
  /-- Gives a float through an output. -/
  | throughReal (run : Pointer → Option Double → Host (Int × Option Double))
  | getItem (run : Pointer → Int → Host Pointer)
  | setItem (run : Pointer → Int → Pointer → Host Int)
  | append (run : Pointer → Pointer → Host Int)
  | retain
  | release
  | parse
  | parseWithKeywords
  | build

/-- The functions by name. -/
def exports : List (String × Export) :=
  [("Py_None", .constant .none),
    ("Py_True", .constant .yes),
    ("Py_False", .constant .no),
    ("PyLong_FromLong", .ofInteger longFromLong),
    ("PyLong_FromUnsignedLong", .ofInteger longFromUnsignedLong),
    ("PyLong_FromLongLong", .ofInteger longFromLongLong),
    ("PyLong_FromSize_t", .ofInteger longFromSize),
    ("PyBool_FromLong", .ofInteger boolFromLong),
    ("PyFloat_FromDouble", .ofReal floatFromDouble),
    ("PyUnicode_FromString", .ofText textFromPointer),
    ("PyTuple_New", .ofLength tupleNew),
    ("PyList_New", .ofLength listNew),
    ("PyLong_AsLong", .toInteger longAsLong),
    ("PyLong_AsLongLong", .toInteger longAsLongLong),
    ("PyLong_AsUnsignedLong", .toInteger longAsUnsignedLong),
    ("PyLong_AsSize_t", .toInteger longAsSize),
    ("PyTuple_Size", .toInteger tupleSize),
    ("PyList_Size", .toInteger listSize),
    ("pyabi_size", .toInteger itemCount),
    ("PyFloat_AsDouble", .toReal floatAsDouble),
    ("PyUnicode_AsUTF8", .toText textAsPointer),
    ("pyabi_type_name", .toText fun p => do return (← typeName p).map String.toUTF8),
    ("PyLong_Check", .test longCheck),
    ("PyLong_CheckExact", .test longCheckExact),
    ("PyBool_Check", .test boolCheck),
    ("PyFloat_Check", .test floatCheck),
    ("PyFloat_CheckExact", .test floatCheckExact),
    ("PyUnicode_Check", .test textCheck),
    ("PyTuple_Check", .test tupleCheck),
    ("PyList_Check", .test listCheck),
    ("pyabi_refcnt", .count refcount),
    ("pyabi_long_as_long_checked", .throughInteger longAsLongChecked),
    ("pyabi_long_as_long_long_checked", .throughInteger longAsLongLongChecked),
    ("pyabi_long_as_size_t_checked", .throughInteger longAsSizeChecked),
    ("pyabi_float_as_double_checked", .throughReal floatAsDoubleChecked),
    ("PyTuple_GetItem", .getItem tupleGetItem),
    ("PyList_GetItem", .getItem listGetItem),
    ("PyTuple_SetItem", .setItem tupleSetItem),
    ("PyList_SetItem", .setItem listSetItem),
    ("PyList_Append", .append listAppend),
    ("Py_INCREF", .retain),
    ("Py_XINCREF", .retain),
    ("Py_DECREF", .release),
    ("Py_XDECREF", .release),
    ("PyArg_ParseTupleSlots", .parse),
    ("PyArg_ParseTupleAndKeywordsSlots", .parseWithKeywords),
    ("Py_BuildValueSlots", .build)]

end ExtensionHost.Boundary
