/-!
# Kinds: the table

The kinds that data and their members are of, each with what it has of its own.
-/

namespace CommandTree.Message

/-- A kind, with the names of what it has of its own, by the way in which it comes by that. -/
structure Kind where
  name : String
  /-- The name in faults. -/
  title : String := name
  /-- The module in which the kind is defined. -/
  home : String := "builtins"
  /-- The kinds above it, the nearest first. -/
  above : List String := ["object"]
  /-- The room that one takes up, the room for each item of it, and the places of its members and of
  its references. -/
  sizes : List Int := []
  /-- The line of the module on which its definition begins, as far as it tells. -/
  line : Option Int := none
  /-- How it is called, as far as it tells. -/
  signature : Option String := none
  /-- Operations that the language has signs or words for. -/
  slots : List String := []
  methods : List String := []
  attributes : List String := []
  /-- Members that are kept in a fixed place. -/
  places : List String := []
  /-- Methods of the kind itself, and functions that make one. -/
  makers : List String := []
  /-- Methods that are functions themselves. -/
  functions : List String := []
  /-- Such methods of the kind itself. -/
  kindFunctions : List String := []
  /-- Members that a function computes. -/
  computed : List String := []

/-- The words of some lines. -/
def words (lines : List String) : List String := lines.flatMap (·.splitOn " ")

/-- The kinds. -/
def kindTable : List Kind :=
  [{ name := "object"
     above := []
     sizes := [16, 0, 0, 0]
     signature := some "()"
     slots := words
       ["__repr__ __hash__ __str__ __getattribute__ __setattr__ __delattr__ __lt__ __le__",
        "__eq__ __ne__ __gt__ __ge__ __init__"]
     methods := words ["__reduce_ex__ __reduce__ __getstate__ __format__ __sizeof__ __dir__"]
     attributes := words ["__class__"]
     makers := words ["__new__ __subclasshook__ __init_subclass__"] },
   { name := "type"
     sizes := [928, 40, 264, 368]
     slots := words
       ["__repr__ __call__ __getattribute__ __setattr__ __delattr__ __init__ __or__ __ror__"]
     methods := words ["mro __subclasses__ __instancecheck__ __subclasscheck__ __dir__ __sizeof__"]
     attributes := words
       ["__name__ __qualname__ __bases__ __module__ __abstractmethods__ __dict__ __doc__",
        "__text_signature__ __annotations__ __mro__ __type_params__"]
     places := words
       ["__basicsize__ __itemsize__ __flags__ __weakrefoffset__ __base__ __dictoffset__"]
     makers := words ["__new__ __prepare__"] },
   { name := "NoneType"
     sizes := [16, 0, 0, 0]
     slots := words ["__repr__ __bool__ __hash__ __lt__ __le__ __eq__ __ne__ __gt__ __ge__"]
     makers := words ["__new__"] },
   { name := "bool"
     above := ["int", "object"]
     sizes := [24, 4, 0, 0]
     slots := words ["__repr__ __invert__ __and__ __rand__ __xor__ __rxor__ __or__ __ror__"]
     makers := words ["__new__"] },
   { name := "int"
     sizes := [24, 4, 0, 0]
     slots := words
       ["__repr__ __hash__ __getattribute__ __lt__ __le__ __eq__ __ne__ __gt__ __ge__ __add__",
        "__radd__ __sub__ __rsub__ __mul__ __rmul__ __mod__ __rmod__ __divmod__ __rdivmod__",
        "__pow__ __rpow__ __neg__ __pos__ __abs__ __bool__ __invert__ __lshift__ __rlshift__",
        "__rshift__ __rrshift__ __and__ __rand__ __xor__ __rxor__ __or__ __ror__ __int__",
        "__float__ __floordiv__ __rfloordiv__ __truediv__ __rtruediv__ __index__"]
     methods := words
       ["conjugate bit_length bit_count to_bytes as_integer_ratio __trunc__ __floor__ __ceil__",
        "__round__ __getnewargs__ __format__ __sizeof__ is_integer"]
     attributes := words ["real imag numerator denominator"]
     makers := words ["__new__ from_bytes"] },
   { name := "float"
     sizes := [24, 0, 0, 0]
     signature := some "(x=0, /)"
     slots := words
       ["__repr__ __hash__ __getattribute__ __lt__ __le__ __eq__ __ne__ __gt__ __ge__ __add__",
        "__radd__ __sub__ __rsub__ __mul__ __rmul__ __mod__ __rmod__ __divmod__ __rdivmod__",
        "__pow__ __rpow__ __neg__ __pos__ __abs__ __bool__ __int__ __float__ __floordiv__",
        "__rfloordiv__ __truediv__ __rtruediv__"]
     methods := words
       ["conjugate __trunc__ __floor__ __ceil__ __round__ as_integer_ratio hex is_integer",
        "__getnewargs__ __format__"]
     attributes := words ["real imag"]
     makers := words ["__new__ fromhex __getformat__"] },
   { name := "str"
     sizes := [64, 0, 0, 0]
     slots := words
       ["__repr__ __hash__ __str__ __getattribute__ __lt__ __le__ __eq__ __ne__ __gt__ __ge__",
        "__iter__ __mod__ __rmod__ __len__ __getitem__ __add__ __mul__ __rmul__ __contains__"]
     methods := words
       ["encode replace split rsplit join capitalize casefold title center count expandtabs",
        "find partition index ljust lower lstrip rfind rindex rjust rstrip rpartition",
        "splitlines strip swapcase translate upper startswith endswith removeprefix",
        "removesuffix isascii islower isupper istitle isspace isdecimal isdigit isnumeric",
        "isalpha isalnum isidentifier isprintable zfill format format_map __format__",
        "__sizeof__ __getnewargs__"]
     makers := words ["__new__ maketrans"] },
   { name := "bytes"
     sizes := [33, 1, 0, 0]
     slots := words
       ["__repr__ __hash__ __str__ __getattribute__ __lt__ __le__ __eq__ __ne__ __gt__ __ge__",
        "__iter__ __mod__ __rmod__ __len__ __getitem__ __add__ __mul__ __rmul__ __contains__",
        "__buffer__"]
     methods := words
       ["__getnewargs__ __bytes__ capitalize center count decode endswith expandtabs find hex",
        "index isalnum isalpha isascii isdigit islower isspace istitle isupper join ljust",
        "lower lstrip partition replace removeprefix removesuffix rfind rindex rjust",
        "rpartition rsplit rstrip split splitlines startswith strip swapcase title translate",
        "upper zfill"]
     makers := words ["__new__ fromhex maketrans"] },
   { name := "list"
     sizes := [40, 0, 0, 0]
     signature := some "(iterable=(), /)"
     slots := words
       ["__repr__ __getattribute__ __lt__ __le__ __eq__ __ne__ __gt__ __ge__ __iter__ __init__",
        "__len__ __setitem__ __delitem__ __add__ __mul__ __rmul__ __contains__ __iadd__",
        "__imul__"]
     methods := words
       ["__getitem__ __reversed__ __sizeof__ clear copy append insert extend pop remove index",
        "count reverse sort"]
     makers := words ["__new__ __class_getitem__"] },
   { name := "tuple"
     sizes := [24, 8, 0, 0]
     signature := some "(iterable=(), /)"
     slots := words
       ["__repr__ __hash__ __getattribute__ __lt__ __le__ __eq__ __ne__ __gt__ __ge__ __iter__",
        "__len__ __getitem__ __add__ __mul__ __rmul__ __contains__"]
     methods := words ["__getnewargs__ index count"]
     makers := words ["__new__ __class_getitem__"] },
   { name := "dict"
     sizes := [48, 0, 0, 0]
     slots := words
       ["__repr__ __getattribute__ __lt__ __le__ __eq__ __ne__ __gt__ __ge__ __iter__ __init__",
        "__or__ __ror__ __ior__ __len__ __setitem__ __delitem__"]
     methods := words
       ["__getitem__ __contains__ __sizeof__ get setdefault pop popitem keys items values",
        "update clear copy __reversed__"]
     makers := words ["__new__ fromkeys __class_getitem__"] },
   { name := "set"
     sizes := [200, 0, 0, 192]
     slots := words
       ["__repr__ __getattribute__ __lt__ __le__ __eq__ __ne__ __gt__ __ge__ __iter__ __init__",
        "__sub__ __rsub__ __and__ __rand__ __xor__ __rxor__ __or__ __ror__ __isub__ __iand__",
        "__ixor__ __ior__ __len__"]
     methods := words
       ["__contains__ add clear copy discard difference difference_update intersection",
        "intersection_update isdisjoint issubset issuperset pop __reduce__ remove __sizeof__",
        "symmetric_difference symmetric_difference_update union update"]
     makers := words ["__new__ __class_getitem__"] },
   { name := "function"
     sizes := [144, 0, 88, 96]
     signature := some "(code, globals, name=None, argdefs=None, closure=None, kwdefaults=None)"
     slots := words ["__repr__ __call__ __get__"]
     attributes := words
       ["__code__ __defaults__ __kwdefaults__ __annotations__ __dict__ __name__ __qualname__",
        "__type_params__"]
     places := words ["__closure__ __doc__ __globals__ __module__ __builtins__"]
     makers := words ["__new__"] },
   { name := "builtin_function_or_method"
     sizes := [56, 0, 0, 40]
     slots := words
       ["__repr__ __hash__ __call__ __getattribute__ __lt__ __le__ __eq__ __ne__ __gt__ __ge__"]
     methods := words ["__reduce__"]
     attributes := words ["__doc__ __name__ __qualname__ __self__ __text_signature__"]
     places := words ["__module__"] },
   { name := "method"
     sizes := [48, 0, 0, 32]
     signature := some "(function, instance, /)"
     slots := words
       ["__repr__ __hash__ __call__ __getattribute__ __setattr__ __delattr__ __lt__ __le__",
        "__eq__ __ne__ __gt__ __ge__"]
     methods := words ["__reduce__"]
     attributes := words ["__doc__"]
     places := words ["__func__ __self__"]
     makers := words ["__new__"] },
   { name := "method_descriptor"
     sizes := [56, 0, 0, 0]
     slots := words ["__repr__ __call__ __getattribute__ __get__"]
     methods := words ["__reduce__"]
     attributes := words ["__doc__ __qualname__ __text_signature__"]
     places := words ["__objclass__ __name__"] },
   { name := "wrapper_descriptor"
     sizes := [56, 0, 0, 0]
     slots := words ["__repr__ __call__ __getattribute__ __get__"]
     methods := words ["__reduce__"]
     attributes := words ["__doc__ __qualname__ __text_signature__"]
     places := words ["__objclass__ __name__"] },
   { name := "method-wrapper"
     sizes := [32, 0, 0, 0]
     slots := words
       ["__repr__ __hash__ __call__ __getattribute__ __lt__ __le__ __eq__ __ne__ __gt__ __ge__"]
     methods := words ["__reduce__"]
     attributes := words ["__objclass__ __name__ __qualname__ __doc__ __text_signature__"]
     places := words ["__self__"] },
   { name := "getset_descriptor"
     sizes := [48, 0, 0, 0]
     slots := words ["__repr__ __getattribute__ __get__ __set__ __delete__"]
     attributes := words ["__doc__ __qualname__"]
     places := words ["__objclass__ __name__"] },
   { name := "member_descriptor"
     sizes := [48, 0, 0, 0]
     slots := words ["__repr__ __getattribute__ __get__ __set__ __delete__"]
     methods := words ["__reduce__"]
     attributes := words ["__doc__ __qualname__"]
     places := words ["__objclass__ __name__"] },
   { name := "mappingproxy"
     sizes := [24, 0, 0, 0]
     slots := words
       ["__repr__ __hash__ __str__ __getattribute__ __lt__ __le__ __eq__ __ne__ __gt__ __ge__",
        "__iter__ __or__ __ror__ __ior__ __len__ __getitem__ __contains__"]
     methods := words ["get keys values items copy __reversed__"]
     makers := words ["__new__ __class_getitem__"] },
   { name := "GenericAlias"
     title := "types.GenericAlias"
     home := "types"
     sizes := [64, 0, 0, 40]
     slots := words
       ["__repr__ __hash__ __call__ __getattribute__ __lt__ __le__ __eq__ __ne__ __gt__ __ge__",
        "__iter__ __or__ __ror__ __getitem__"]
     methods := words ["__mro_entries__ __instancecheck__ __subclasscheck__ __reduce__ __dir__"]
     attributes := words ["__parameters__ __typing_unpacked_tuple_args__"]
     places := words ["__origin__ __args__ __unpacked__"]
     makers := words ["__new__"] },
   { name := "module"
     sizes := [56, 0, 16, 40]
     signature := some "(name, doc=None)"
     slots := words ["__repr__ __getattribute__ __setattr__ __delattr__ __init__"]
     methods := words ["__dir__"]
     attributes := words ["__annotations__"]
     places := words ["__dict__"]
     makers := words ["__new__"] },
   { name := "property"
     sizes := [64, 0, 0, 0]
     signature := some "(fget=None, fset=None, fdel=None, doc=None)"
     slots := words ["__getattribute__ __get__ __set__ __delete__ __init__"]
     methods := words ["getter setter deleter __set_name__"]
     attributes := words ["__isabstractmethod__ __name__"]
     places := words ["fget fset fdel __doc__"]
     makers := words ["__new__"] },
   { name := "_tuplegetter"
     title := "collections._tuplegetter"
     home := "collections"
     sizes := [32, 0, 0, 0]
     slots := words ["__repr__ __get__ __set__ __delete__"]
     methods := words ["__reduce__"]
     places := words ["__doc__"]
     makers := words ["__new__"] },
   { name := "EnumType"
     home := "enum"
     above := ["type", "object"]
     sizes := [928, 40, 264, 368]
     makers := words ["__new__"]
     functions := words
       ["__bool__ __call__ __contains__ __delattr__ __dir__ __getitem__ __iter__",
        "__len__ __repr__ __reversed__ __setattr__ _create_ _convert_ _add_member_"]
     kindFunctions := words
       ["__prepare__ _check_for_existing_members_ _get_mixins_ _find_data_repr_",
        "_find_data_type_ _find_new_"]
     computed := words ["__members__"] },
   { name := "Enum"
     home := "enum"
     sizes := [16, 0, -1, -32]
     attributes := words ["__dict__ __weakref__"]
     functions := words
       ["__init__ __repr__ __str__ __dir__ __format__ __hash__ __reduce_ex__ __deepcopy__",
        "__copy__ __new__ _add_alias_ _add_value_alias_"]
     kindFunctions := words ["_missing_ __signature__"] },
   { name := "ArgType"
     home := "commandeer.arguments"
     above := ["Enum", "object"]
     sizes := [16, 0, -1, -32]
     line := some 43
     computed := words ["numeric bounds"] },
   { name := "ExecutorType"
     home := "commandeer.commands"
     above := ["Enum", "object"]
     sizes := [16, 0, -1, -32]
     line := some 56 },
   { name := "SenderKind"
     home := "commandeer.senders"
     above := ["Enum", "object"]
     sizes := [16, 0, -1, -32]
     line := some 19 },
   { name := "Value"
     home := "commandeer.arguments"
     above := ["tuple", "object"]
     sizes := [24, 8, 0, 0]
     line := some 87
     functions := words
       ["_replace __repr__ _asdict __getnewargs__ as_string as_int as_long as_double",
        "as_boolean"]
     kindFunctions := words ["_make"]
     computed := words ["present"] },
   { name := "UnsetType"
     home := "commandeer.utils"
     sizes := [16, 0, -1, -32]
     line := some 38
     attributes := words ["__dict__ __weakref__"]
     functions := words ["__new__ __bool__ __repr__ __copy__ __deepcopy__ __reduce__"]
     kindFunctions := words ["__init_subclass__"] },
   { name := "Opaque"
     home := "__main__"
     sizes := [16, 0, -1, -32]
     attributes := words ["__dict__ __weakref__"]
     functions := words ["__repr__"] }]

end CommandTree.Message
