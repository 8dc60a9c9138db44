import CommandTree.Message.KindTable

/-!
# Kinds: what they say about themselves

The notes that kinds, operations and methods have for their readers, which a gap of a message can
show like any other member.
-/

namespace CommandTree.Message

/-- A text of some lines. -/
def lines (parts : List String) : String := "\n".intercalate parts

/-- The notes of kinds. -/
def kindNotes : List (String × String) :=
  [("object", lines
    ["The base class of the class hierarchy.", "",
     "When called, it accepts no arguments and returns a new featureless",
     "instance that has no instance attributes and cannot be given any.", ""]),
   ("type", lines
    ["type(object) -> the object's type", "type(name, bases, dict, **kwds) -> a new type"]),
   ("bool", lines
    ["bool(x) -> bool", "", "Returns True when the argument x is true, False otherwise.",
     "The builtins True and False are the only two instances of the class bool.",
     "The class bool is a subclass of the class int, and cannot be subclassed."]),
   ("int", lines
    ["int([x]) -> integer", "int(x, base=10) -> integer", "",
     "Convert a number or string to an integer, or return 0 if no arguments",
     "are given.  If x is a number, return x.__int__().  For floating point",
     "numbers, this truncates towards zero.", "",
     "If x is not a number or if base is given, then x must be a string,",
     "bytes, or bytearray instance representing an integer literal in the",
     "given base.  The literal can be preceded by '+' or '-' and be surrounded",
     "by whitespace.  The base defaults to 10.  Valid bases are 0 and 2-36.",
     "Base 0 means to interpret the base from the string as an integer literal.",
     ">>> int('0b100', base=0)", "4"]),
   ("float", lines
    ["Convert a string or number to a floating point number, if possible."]),
   ("str", lines
    ["str(object='') -> str", "str(bytes_or_buffer[, encoding[, errors]]) -> str", "",
     "Create a new string object from the given object. If encoding or",
     "errors is specified, then the object must expose a data buffer",
     "that will be decoded using the given encoding and error handler.",
     "Otherwise, returns the result of object.__str__() (if defined)", "or repr(object).",
     "encoding defaults to sys.getdefaultencoding().", "errors defaults to 'strict'."]),
   ("bytes", lines
    ["bytes(iterable_of_ints) -> bytes", "bytes(string, encoding[, errors]) -> bytes",
     "bytes(bytes_or_buffer) -> immutable copy of bytes_or_buffer",
     "bytes(int) -> bytes object of size given by the parameter initialized with null bytes",
     "bytes() -> empty bytes object", "", "Construct an immutable array of bytes from:",
     "  - an iterable yielding integers in range(256)",
     "  - a text string encoded using the specified encoding",
     "  - any object implementing the buffer API.", "  - an integer"]),
   ("list", lines
    ["Built-in mutable sequence.", "",
     "If no argument is given, the constructor creates a new empty list.",
     "The argument must be an iterable if specified."]),
   ("tuple", lines
    ["Built-in immutable sequence.", "",
     "If no argument is given, the constructor returns an empty tuple.",
     "If iterable is specified the tuple is initialized from iterable's items.", "",
     "If the argument is a tuple, the return value is the same object."]),
   ("dict", lines
    ["dict() -> new empty dictionary",
     "dict(mapping) -> new dictionary initialized from a mapping object's",
     "    (key, value) pairs", "dict(iterable) -> new dictionary initialized as if via:",
     "    d = \x7b\x7d", "    for k, v in iterable:", "        d[k] = v",
     "dict(**kwargs) -> new dictionary initialized with the name=value pairs",
     "    in the keyword argument list.  For example:  dict(one=1, two=2)"]),
   ("set", lines
    ["set() -> new empty set object", "set(iterable) -> new set object", "",
     "Build an unordered collection of unique elements."]),
   ("function", lines
    ["Create a function object.", "", "  code", "    a code object", "  globals",
     "    the globals dictionary", "  name",
     "    a string that overrides the name from the code object", "  argdefs",
     "    a tuple that specifies the default argument values", "  closure",
     "    a tuple that supplies the bindings for free variables", "  kwdefaults",
     "    a dictionary that specifies the default keyword argument values"]),
   ("method", lines
    ["Create a bound instance method object."]),
   ("GenericAlias", lines
    ["Represent a PEP 585 generic type", "",
     "E.g. for t = list[int], t.__origin__ is list and t.__args__ is (int,)."]),
   ("module", lines
    ["Create a module object.", "",
     "The name must be a string; the optional doc argument can have any type."]),
   ("property", lines
    ["Property attribute.", "", "  fget",
     "    function to be used for getting an attribute value", "  fset",
     "    function to be used for setting an attribute value", "  fdel",
     "    function to be used for del'ing an attribute", "  doc", "    docstring", "",
     "Typical use is to define a managed attribute x:", "", "class C(object):",
     "    def getx(self): return self._x", "    def setx(self, value): self._x = value",
     "    def delx(self): del self._x",
     "    x = property(getx, setx, delx, \"I'm the 'x' property.\")", "",
     "Decorators make defining new properties or modifying existing ones easy:", "",
     "class C(object):", "    @property", "    def x(self):",
     "        \"I am the 'x' property.\"", "        return self._x", "    @x.setter",
     "    def x(self, value):", "        self._x = value", "    @x.deleter", "    def x(self):",
     "        del self._x"]),
   ("EnumType", lines
    ["", "Metaclass for Enum", ""]),
   ("Enum", lines
    ["", "Create a collection of name/value pairs.", "", "Example enumeration:", "",
     ">>> class Color(Enum):", "...     RED = 1", "...     BLUE = 2", "...     GREEN = 3", "",
     "Access them by:", "", "- attribute access:", "", "  >>> Color.RED", "  <Color.RED: 1>", "",
     "- value lookup:", "", "  >>> Color(1)", "  <Color.RED: 1>", "", "- name lookup:", "",
     "  >>> Color['RED']", "  <Color.RED: 1>", "",
     "Enumerations can be iterated over, and know how many members they have:", "",
     ">>> len(Color)", "3", "", ">>> list(Color)",
     "[<Color.RED: 1>, <Color.BLUE: 2>, <Color.GREEN: 3>]", "",
     "Methods can be added to enumerations, and members can have their own",
     "attributes -- see the documentation for details.", ""]),
   ("ArgType", lines
    ["", "Semantic types an argument value can take.", "",
     "- STRING: textual value (single token, or the rest of the input when greedy).",
     "- INTEGER: signed 32-bit integer.", "- LONG: signed 64-bit integer.",
     "- DOUBLE: finite floating-point value.", "- BOOLEAN: true or false.", ""]),
   ("ExecutorType", lines
    ["", "Restriction on the class of sender allowed to invoke a node.", "",
     "- ANY: every sender.",
     "- INTERACTIVE_ONLY: interactive (human) senders only; otherwise "
       ++ "\"executor-type.player\".",
     "- NONINTERACTIVE_ONLY: the automated console only; otherwise \"executor-type.console\".",
     ""]),
   ("Value", lines
    ["", "Bound argument value: the variant tag (an ArgType, or None when absent) and its payload.",
     ""]),
   ("UnsetType", lines
    ["", "Internal sentinel type representing a value that was not provided.", "",
     "Characteristics",
     "- Boolean-false: bool(Unset) is False, but it is distinct from None and 0.",
     "- Printable: repr(Unset) -> \"Unset\" for friendly diagnostics.",
     "- Non-subclassable and a singleton per process.", ""])]

/-- The notes of methods that are functions, by their full names. -/
def methodNotes : List (String × String) :=
  [("Value.__new__", lines
    ["Create new instance of Value(type, payload)"]),
   ("Value._make", lines
    ["Make a new Value object from a sequence or iterable"]),
   ("Value._replace", lines
    ["Return a new Value object replacing specified fields with new values"]),
   ("Value.__repr__", lines
    ["Return a nicely formatted representation string"]),
   ("Value._asdict", lines
    ["Return a new dict which maps field names to their values."]),
   ("Value.__getnewargs__", lines
    ["Return self as a plain tuple.  Used by copy and pickle."]),
   ("Value.as_int", lines
    ["", "Numeric payload narrowed to a signed 32-bit integer: integral values wrap",
     "around, doubles are truncated and saturate at the range limits.", ""]),
   ("Value.as_long", lines
    ["", "Numeric payload narrowed to a signed 64-bit integer, like as_int().",
     ""]),
   ("Enum._generate_next_value_", lines
    ["", "Generate the next value when not given.", "",
     "name: the name of the member", "start: the initial start value or None",
     "count: the number of existing members",
     "last_values: the list of values assigned", ""]),
   ("Enum.__dir__", lines
    ["", "Returns public methods and other interesting attributes.", ""])]

/-- The notes of operations, and how they are called. -/
def slotNotes : List (String × String × String) :=
  [("__repr__", "Return repr(self).", "($self, /)"),
   ("__hash__", "Return hash(self).", "($self, /)"),
   ("__str__", "Return str(self).", "($self, /)"),
   ("__getattribute__", "Return getattr(self, name).", "($self, name, /)"),
   ("__setattr__", "Implement setattr(self, name, value).", "($self, name, value, /)"),
   ("__delattr__", "Implement delattr(self, name).", "($self, name, /)"),
   ("__lt__", "Return self<value.", "($self, value, /)"),
   ("__le__", "Return self<=value.", "($self, value, /)"),
   ("__eq__", "Return self==value.", "($self, value, /)"),
   ("__ne__", "Return self!=value.", "($self, value, /)"),
   ("__gt__", "Return self>value.", "($self, value, /)"),
   ("__ge__", "Return self>=value.", "($self, value, /)"),
   ("__init__",
    "Initialize self.  See help(type(self)) for accurate signature.",
    "($self, /, *args, **kwargs)"),
   ("__call__", "Call self as a function.", "($self, /, *args, **kwargs)"),
   ("__or__", "Return self|value.", "($self, value, /)"),
   ("__ror__", "Return value|self.", "($self, value, /)"),
   ("__and__", "Return self&value.", "($self, value, /)"),
   ("__rand__", "Return value&self.", "($self, value, /)"),
   ("__xor__", "Return self^value.", "($self, value, /)"),
   ("__rxor__", "Return value^self.", "($self, value, /)"),
   ("__add__", "Return self+value.", "($self, value, /)"),
   ("__radd__", "Return value+self.", "($self, value, /)"),
   ("__sub__", "Return self-value.", "($self, value, /)"),
   ("__rsub__", "Return value-self.", "($self, value, /)"),
   ("__mul__", "Return self*value.", "($self, value, /)"),
   ("__rmul__", "Return value*self.", "($self, value, /)"),
   ("__mod__", "Return self%value.", "($self, value, /)"),
   ("__rmod__", "Return value%self.", "($self, value, /)"),
   ("__divmod__", "Return divmod(self, value).", "($self, value, /)"),
   ("__rdivmod__", "Return divmod(value, self).", "($self, value, /)"),
   ("__pow__", "Return pow(self, value, mod).", "($self, value, mod=None, /)"),
   ("__rpow__", "Return pow(value, self, mod).", "($self, value, mod=None, /)"),
   ("__neg__", "-self", "($self, /)"), ("__pos__", "+self", "($self, /)"),
   ("__abs__", "abs(self)", "($self, /)"), ("__bool__", "True if self else False", "($self, /)"),
   ("__invert__", "~self", "($self, /)"),
   ("__lshift__", "Return self<<value.", "($self, value, /)"),
   ("__rlshift__", "Return value<<self.", "($self, value, /)"),
   ("__rshift__", "Return self>>value.", "($self, value, /)"),
   ("__rrshift__", "Return value>>self.", "($self, value, /)"),
   ("__int__", "int(self)", "($self, /)"), ("__float__", "float(self)", "($self, /)"),
   ("__floordiv__", "Return self//value.", "($self, value, /)"),
   ("__rfloordiv__", "Return value//self.", "($self, value, /)"),
   ("__truediv__", "Return self/value.", "($self, value, /)"),
   ("__rtruediv__", "Return value/self.", "($self, value, /)"),
   ("__index__",
    "Return self converted to an integer, if self is suitable for use as an index into a list.",
    "($self, /)"),
   ("__iter__", "Implement iter(self).", "($self, /)"),
   ("__len__", "Return len(self).", "($self, /)"),
   ("__getitem__", "Return self[key].", "($self, key, /)"),
   ("__contains__", "Return bool(key in self).", "($self, key, /)"),
   ("__setitem__", "Set self[key] to value.", "($self, key, value, /)"),
   ("__delitem__", "Delete self[key].", "($self, key, /)"),
   ("__iadd__", "Implement self+=value.", "($self, value, /)"),
   ("__imul__", "Implement self*=value.", "($self, value, /)"),
   ("__ior__", "Return self|=value.", "($self, value, /)"),
   ("__isub__", "Return self-=value.", "($self, value, /)"),
   ("__iand__", "Return self&=value.", "($self, value, /)"),
   ("__ixor__", "Return self^=value.", "($self, value, /)"),
   ("__get__",
    "Return an attribute of instance, which is of type owner.",
    "($self, instance, owner=None, /)"),
   ("__set__", "Set an attribute of instance to value.", "($self, instance, value, /)"),
   ("__delete__", "Delete an attribute of instance.", "($self, instance, /)"),
   ("__buffer__",
    "Return a buffer object that exposes the underlying memory of the object.",
    "($self, flags, /)")]

/-- What a function of the host itself says about itself, and how it is called. -/
def builtinNotes : List (String × String × String) :=
  [("len", "Return the number of items in a container.", "($module, obj, /)"),
   ("abs", "Return the absolute value of the argument.", "($module, x, /)")]

/-- What loads the module of the host itself. -/
def moduleLoader : String := "<class '_frozen_importlib.BuiltinImporter'>"

/-- The functions of the host itself. -/
def moduleFunctions : List String := words
  ["__build_class__ __import__ abs all any ascii bin breakpoint callable chr compile delattr",
   "dir divmod eval exec format getattr globals hasattr hash hex id input isinstance",
   "issubclass iter aiter len locals max min next anext oct ord pow print repr round setattr",
   "sorted sum vars open"]

/-- The kinds of the host itself. -/
def moduleKinds : List String := words
  ["bool memoryview bytearray bytes classmethod complex dict enumerate filter float frozenset",
   "property int list map object range reversed set slice staticmethod str super tuple type",
   "zip BaseException BaseExceptionGroup Exception GeneratorExit KeyboardInterrupt SystemExit",
   "ArithmeticError AssertionError AttributeError BufferError EOFError ImportError LookupError",
   "MemoryError NameError OSError ReferenceError RuntimeError StopAsyncIteration StopIteration",
   "SyntaxError SystemError TypeError ValueError Warning FloatingPointError OverflowError",
   "ZeroDivisionError BytesWarning DeprecationWarning EncodingWarning FutureWarning",
   "ImportWarning PendingDeprecationWarning ResourceWarning RuntimeWarning SyntaxWarning",
   "UnicodeWarning UserWarning BlockingIOError ChildProcessError ConnectionError",
   "FileExistsError FileNotFoundError InterruptedError IsADirectoryError NotADirectoryError",
   "PermissionError ProcessLookupError TimeoutError IndentationError IndexError KeyError",
   "ModuleNotFoundError NotImplementedError PythonFinalizationError RecursionError",
   "UnboundLocalError UnicodeError",
   "BrokenPipeError ConnectionAbortedError ConnectionRefusedError ConnectionResetError",
   "TabError UnicodeDecodeError UnicodeEncodeError UnicodeTranslateError ExceptionGroup"]

end CommandTree.Message
