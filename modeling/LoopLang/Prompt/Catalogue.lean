import LoopLang.Prompt.Family

/-!
# The catalogue

The features of every family in their order, with the signature and the note that some
of them carry. Primitives of one name are alike in all families, and so are the makers.
-/
namespace LoopLang.Prompt

def primitiveNotes : List (String × String × String) := [
  ("__repr__", "($self, /)", "Return repr(self)."),
  ("__hash__", "($self, /)", "Return hash(self)."),
  ("__str__", "($self, /)", "Return str(self)."),
  ("__getattribute__", "($self, name, /)", "Return getattr(self, name)."),
  ("__lt__", "($self, value, /)", "Return self<value."),
  ("__le__", "($self, value, /)", "Return self<=value."),
  ("__eq__", "($self, value, /)", "Return self==value."),
  ("__ne__", "($self, value, /)", "Return self!=value."),
  ("__gt__", "($self, value, /)", "Return self>value."),
  ("__ge__", "($self, value, /)", "Return self>=value."),
  ("__iter__", "($self, /)", "Implement iter(self)."),
  ("__mod__", "($self, value, /)", "Return self%value."),
  ("__rmod__", "($self, value, /)", "Return value%self."),
  ("__len__", "($self, /)", "Return len(self)."),
  ("__getitem__", "($self, key, /)", "Return self[key]."),
  ("__add__", "($self, value, /)", "Return self+value."),
  ("__mul__", "($self, value, /)", "Return self*value."),
  ("__rmul__", "($self, value, /)", "Return value*self."),
  ("__contains__", "($self, key, /)", "Return key in self."),
  ("__radd__", "($self, value, /)", "Return value+self."),
  ("__sub__", "($self, value, /)", "Return self-value."),
  ("__rsub__", "($self, value, /)", "Return value-self."),
  ("__divmod__", "($self, value, /)", "Return divmod(self, value)."),
  ("__rdivmod__", "($self, value, /)", "Return divmod(value, self)."),
  ("__pow__", "($self, value, mod=None, /)", "Return pow(self, value, mod)."),
  ("__rpow__", "($self, value, mod=None, /)", "Return pow(value, self, mod)."),
  ("__neg__", "($self, /)", "-self"),
  ("__pos__", "($self, /)", "+self"),
  ("__abs__", "($self, /)", "abs(self)"),
  ("__bool__", "($self, /)", "True if self else False"),
  ("__invert__", "($self, /)", "~self"),
  ("__lshift__", "($self, value, /)", "Return self<<value."),
  ("__rlshift__", "($self, value, /)", "Return value<<self."),
  ("__rshift__", "($self, value, /)", "Return self>>value."),
  ("__rrshift__", "($self, value, /)", "Return value>>self."),
  ("__and__", "($self, value, /)", "Return self&value."),
  ("__rand__", "($self, value, /)", "Return value&self."),
  ("__xor__", "($self, value, /)", "Return self^value."),
  ("__rxor__", "($self, value, /)", "Return value^self."),
  ("__or__", "($self, value, /)", "Return self|value."),
  ("__ror__", "($self, value, /)", "Return value|self."),
  ("__int__", "($self, /)", "int(self)"),
  ("__float__", "($self, /)", "float(self)"),
  ("__floordiv__", "($self, value, /)", "Return self//value."),
  ("__rfloordiv__", "($self, value, /)", "Return value//self."),
  ("__truediv__", "($self, value, /)", "Return self/value."),
  ("__rtruediv__", "($self, value, /)", "Return value/self."),
  ("__index__", "($self, /)",
    "Return self converted to an integer, if self is suitable for use as an index into a list."),
  ("__setattr__", "($self, name, value, /)", "Implement setattr(self, name, value)."),
  ("__delattr__", "($self, name, /)", "Implement delattr(self, name)."),
  ("__init__", "($self, /, *args, **kwargs)",
    "Initialize self.  See help(type(self)) for accurate signature."),
  ("__call__", "($self, /, *args, **kwargs)", "Call self as a function."),
  ("__ior__", "($self, value, /)", "Return self|=value."),
  ("__get__", "($self, instance, owner=None, /)",
    "Return an attribute of instance, which is of type owner."),
  ("__set__", "($self, instance, value, /)", "Set an attribute of instance to value."),
  ("__delete__", "($self, instance, /)", "Delete an attribute of instance."),
  ("__setitem__", "($self, key, value, /)", "Set self[key] to value."),
  ("__delitem__", "($self, key, /)", "Delete self[key].")]

namespace Feature

def primitive (name : String) : Feature :=
  match primitiveNotes.lookup name with
  | some (signature, note) => ⟨name, .primitive, some signature, [note]⟩
  | none => ⟨name, .primitive, none, []⟩

def maker : Feature :=
  ⟨"__new__", .maker, some "($type, *args, **kwargs)",
    ["Create and return a new object.  See help(type) for accurate signature."]⟩

def property (name : String) : Feature :=
  ⟨name, .property, none, []⟩

def member (name : String) : Feature :=
  ⟨name, .member, none, []⟩

/-- A feature that is the same text for all things, or nothing if it has no lines. -/
def fixed (name : String) (lines : List String) : Feature :=
  ⟨name, .fixed, none, lines⟩

def noted (role : Role) (name : String) (signature : Option String) (note : List String) :
    Feature :=
  ⟨name, role, signature, note⟩

end Feature

namespace Catalogue

open Feature

def ofText : List Feature := [
  maker, primitive "__repr__", primitive "__hash__", primitive "__str__",
  primitive "__getattribute__", primitive "__lt__", primitive "__le__", primitive "__eq__",
  primitive "__ne__", primitive "__gt__", primitive "__ge__", primitive "__iter__",
  primitive "__mod__", primitive "__rmod__", primitive "__len__", primitive "__getitem__",
  primitive "__add__", primitive "__mul__", primitive "__rmul__", primitive "__contains__",
  noted .operation "encode" (some "($self, /, encoding='utf-8', errors='strict')")
    ["Encode the string using the codec registered for encoding.", "", "  encoding",
     "    The encoding in which to encode the string.", "  errors",
     "    The error handling scheme to use for encoding errors.",
     "    The default is 'strict' meaning that encoding errors raise a",
     "    UnicodeEncodeError.  Other possible values are 'ignore', 'replace' and",
     "    'xmlcharrefreplace' as well as any other name registered with",
     "    codecs.register_error that can handle UnicodeEncodeErrors."],
  noted .operation "replace" (some "($self, old, new, count=-1, /)")
    ["Return a copy with all occurrences of substring old replaced by new.", "", "  count",
     "    Maximum number of occurrences to replace.",
     "    -1 (the default value) means replace all occurrences.", "",
     "If the optional argument count is given, only the first count occurrences are", "replaced."],
  noted .operation "split" (some "($self, /, sep=None, maxsplit=-1)")
    ["Return a list of the substrings in the string, using sep as the separator string.", "",
     "  sep", "    The separator used to split the string.", "",
     "    When set to None (the default value), will split on any whitespace",
     "    character (including \\n \\r \\t \\f and spaces) and will discard",
     "    empty strings from the result.", "  maxsplit", "    Maximum number of splits.",
     "    -1 (the default value) means no limit.", "",
     "Splitting starts at the front of the string and works to the end.", "",
     "Note, str.split() is mainly useful for data that has been intentionally",
     "delimited.  With natural text that includes punctuation, consider using",
     "the regular expression module."],
  noted .operation "rsplit" (some "($self, /, sep=None, maxsplit=-1)")
    ["Return a list of the substrings in the string, using sep as the separator string.", "",
     "  sep", "    The separator used to split the string.", "",
     "    When set to None (the default value), will split on any whitespace",
     "    character (including \\n \\r \\t \\f and spaces) and will discard",
     "    empty strings from the result.", "  maxsplit", "    Maximum number of splits.",
     "    -1 (the default value) means no limit.", "",
     "Splitting starts at the end of the string and works to the front."],
  noted .operation "join" (some "($self, iterable, /)")
    ["Concatenate any number of strings.", "",
     "The string whose method is called is inserted in between each given string.",
     "The result is returned as a new string.", "",
     "Example: '.'.join(['ab', 'pq', 'rs']) -> 'ab.pq.rs'"],
  noted .operation "capitalize" (some "($self, /)")
    ["Return a capitalized version of the string.", "",
     "More specifically, make the first character have upper case and the rest lower", "case."],
  noted .operation "casefold" (some "($self, /)")
    ["Return a version of the string suitable for caseless comparisons."],
  noted .operation "title" (some "($self, /)")
    ["Return a version of the string where each word is titlecased.", "",
     "More specifically, words start with uppercased characters and all remaining",
     "cased characters have lower case."],
  noted .operation "center" (some "($self, width, fillchar=' ', /)")
    ["Return a centered string of length width.", "",
     "Padding is done using the specified fill character (default is a space)."],
  noted .operation "count" none
    ["S.count(sub[, start[, end]]) -> int", "",
     "Return the number of non-overlapping occurrences of substring sub in",
     "string S[start:end].  Optional arguments start and end are",
     "interpreted as in slice notation."],
  noted .operation "expandtabs" (some "($self, /, tabsize=8)")
    ["Return a copy where all tab characters are expanded using spaces.", "",
     "If tabsize is not given, a tab size of 8 characters is assumed."],
  noted .operation "find" none
    ["S.find(sub[, start[, end]]) -> int", "",
     "Return the lowest index in S where substring sub is found,",
     "such that sub is contained within S[start:end].  Optional",
     "arguments start and end are interpreted as in slice notation.", "", "Return -1 on failure."],
  noted .operation "partition" (some "($self, sep, /)")
    ["Partition the string into three parts using the given separator.", "",
     "This will search for the separator in the string.  If the separator is found,",
     "returns a 3-tuple containing the part before the separator, the separator",
     "itself, and the part after it.", "",
     "If the separator is not found, returns a 3-tuple containing the original string",
     "and two empty strings."],
  noted .operation "index" none
    ["S.index(sub[, start[, end]]) -> int", "",
     "Return the lowest index in S where substring sub is found,",
     "such that sub is contained within S[start:end].  Optional",
     "arguments start and end are interpreted as in slice notation.", "",
     "Raises ValueError when the substring is not found."],
  noted .operation "ljust" (some "($self, width, fillchar=' ', /)")
    ["Return a left-justified string of length width.", "",
     "Padding is done using the specified fill character (default is a space)."],
  noted .operation "lower" (some "($self, /)")
    ["Return a copy of the string converted to lowercase."],
  noted .operation "lstrip" (some "($self, chars=None, /)")
    ["Return a copy of the string with leading whitespace removed.", "",
     "If chars is given and not None, remove characters in chars instead."],
  noted .operation "rfind" none
    ["S.rfind(sub[, start[, end]]) -> int", "",
     "Return the highest index in S where substring sub is found,",
     "such that sub is contained within S[start:end].  Optional",
     "arguments start and end are interpreted as in slice notation.", "", "Return -1 on failure."],
  noted .operation "rindex" none
    ["S.rindex(sub[, start[, end]]) -> int", "",
     "Return the highest index in S where substring sub is found,",
     "such that sub is contained within S[start:end].  Optional",
     "arguments start and end are interpreted as in slice notation.", "",
     "Raises ValueError when the substring is not found."],
  noted .operation "rjust" (some "($self, width, fillchar=' ', /)")
    ["Return a right-justified string of length width.", "",
     "Padding is done using the specified fill character (default is a space)."],
  noted .operation "rstrip" (some "($self, chars=None, /)")
    ["Return a copy of the string with trailing whitespace removed.", "",
     "If chars is given and not None, remove characters in chars instead."],
  noted .operation "rpartition" (some "($self, sep, /)")
    ["Partition the string into three parts using the given separator.", "",
     "This will search for the separator in the string, starting at the end. If",
     "the separator is found, returns a 3-tuple containing the part before the",
     "separator, the separator itself, and the part after it.", "",
     "If the separator is not found, returns a 3-tuple containing two empty strings",
     "and the original string."],
  noted .operation "splitlines" (some "($self, /, keepends=False)")
    ["Return a list of the lines in the string, breaking at line boundaries.", "",
     "Line breaks are not included in the resulting list unless keepends is given and", "true."],
  noted .operation "strip" (some "($self, chars=None, /)")
    ["Return a copy of the string with leading and trailing whitespace removed.", "",
     "If chars is given and not None, remove characters in chars instead."],
  noted .operation "swapcase" (some "($self, /)")
    ["Convert uppercase characters to lowercase and lowercase characters to uppercase."],
  noted .operation "translate" (some "($self, table, /)")
    ["Replace each character in the string using the given translation table.", "", "  table",
     "    Translation table, which must be a mapping of Unicode ordinals to",
     "    Unicode ordinals, strings, or None.", "",
     "The table must implement lookup/indexing via __getitem__, for instance a",
     "dictionary or list.  If this operation raises LookupError, the character is",
     "left untouched.  Characters mapped to None are deleted."],
  noted .operation "upper" (some "($self, /)")
    ["Return a copy of the string converted to uppercase."],
  noted .operation "startswith" none
    ["S.startswith(prefix[, start[, end]]) -> bool", "",
     "Return True if S starts with the specified prefix, False otherwise.",
     "With optional start, test S beginning at that position.",
     "With optional end, stop comparing S at that position.",
     "prefix can also be a tuple of strings to try."],
  noted .operation "endswith" none
    ["S.endswith(suffix[, start[, end]]) -> bool", "",
     "Return True if S ends with the specified suffix, False otherwise.",
     "With optional start, test S beginning at that position.",
     "With optional end, stop comparing S at that position.",
     "suffix can also be a tuple of strings to try."],
  noted .operation "removeprefix" (some "($self, prefix, /)")
    ["Return a str with the given prefix string removed if present.", "",
     "If the string starts with the prefix string, return string[len(prefix):].",
     "Otherwise, return a copy of the original string."],
  noted .operation "removesuffix" (some "($self, suffix, /)")
    ["Return a str with the given suffix string removed if present.", "",
     "If the string ends with the suffix string and that suffix is not empty,",
     "return string[:-len(suffix)]. Otherwise, return a copy of the original", "string."],
  noted .operation "isascii" (some "($self, /)")
    ["Return True if all characters in the string are ASCII, False otherwise.", "",
     "ASCII characters have code points in the range U+0000-U+007F.", "Empty string is ASCII too."],
  noted .operation "islower" (some "($self, /)")
    ["Return True if the string is a lowercase string, False otherwise.", "",
     "A string is lowercase if all cased characters in the string are lowercase and",
     "there is at least one cased character in the string."],
  noted .operation "isupper" (some "($self, /)")
    ["Return True if the string is an uppercase string, False otherwise.", "",
     "A string is uppercase if all cased characters in the string are uppercase and",
     "there is at least one cased character in the string."],
  noted .operation "istitle" (some "($self, /)")
    ["Return True if the string is a title-cased string, False otherwise.", "",
     "In a title-cased string, upper- and title-case characters may only",
     "follow uncased characters and lowercase characters only cased ones."],
  noted .operation "isspace" (some "($self, /)")
    ["Return True if the string is a whitespace string, False otherwise.", "",
     "A string is whitespace if all characters in the string are whitespace and there",
     "is at least one character in the string."],
  noted .operation "isdecimal" (some "($self, /)")
    ["Return True if the string is a decimal string, False otherwise.", "",
     "A string is a decimal string if all characters in the string are decimal and",
     "there is at least one character in the string."],
  noted .operation "isdigit" (some "($self, /)")
    ["Return True if the string is a digit string, False otherwise.", "",
     "A string is a digit string if all characters in the string are digits and there",
     "is at least one character in the string."],
  noted .operation "isnumeric" (some "($self, /)")
    ["Return True if the string is a numeric string, False otherwise.", "",
     "A string is numeric if all characters in the string are numeric and there is at",
     "least one character in the string."],
  noted .operation "isalpha" (some "($self, /)")
    ["Return True if the string is an alphabetic string, False otherwise.", "",
     "A string is alphabetic if all characters in the string are alphabetic and there",
     "is at least one character in the string."],
  noted .operation "isalnum" (some "($self, /)")
    ["Return True if the string is an alpha-numeric string, False otherwise.", "",
     "A string is alpha-numeric if all characters in the string are alpha-numeric and",
     "there is at least one character in the string."],
  noted .operation "isidentifier" (some "($self, /)")
    ["Return True if the string is a valid Python identifier, False otherwise.", "",
     "Call keyword.iskeyword(s) to test whether string s is a reserved identifier,",
     "such as \"def\" or \"class\"."],
  noted .operation "isprintable" (some "($self, /)")
    ["Return True if the string is printable, False otherwise.", "",
     "A string is printable if all of its characters are considered printable in",
     "repr() or if it is empty."],
  noted .operation "zfill" (some "($self, width, /)")
    ["Pad a numeric string with zeros on the left, to fill a field of the given width.", "",
     "The string is never truncated."],
  noted .operation "format" none
    ["S.format(*args, **kwargs) -> str", "",
     "Return a formatted version of S, using substitutions from args and kwargs.",
     "The substitutions are identified by braces ('\x7b' and '\x7d')."],
  noted .operation "format_map" none
    ["S.format_map(mapping) -> str", "",
     "Return a formatted version of S, using substitutions from mapping.",
     "The substitutions are identified by braces ('\x7b' and '\x7d')."],
  noted .operation "__format__" (some "($self, format_spec, /)")
    ["Return a formatted version of the string as described by format_spec."],
  noted .free "maketrans" (some "(x, y=<unrepresentable>, z=<unrepresentable>, /)")
    ["Return a translation table usable for str.translate().", "",
     "If there is only one argument, it must be a dictionary mapping Unicode",
     "ordinals (integers) or characters to Unicode ordinals, strings or None.",
     "Character keys will be then converted to ordinals.",
     "If there are two arguments, they must be strings of equal length, and",
     "in the resulting dictionary, each character in x will be mapped to the",
     "character at the same position in y. If there is a third argument, it",
     "must be a string, whose characters will be mapped to None in the result."],
  noted .operation "__sizeof__" (some "($self, /)")
    ["Return the size of the string in memory, in bytes."],
  noted .operation "__getnewargs__" none [],
  fixed "__doc__"
    ["str(object='') -> str", "str(bytes_or_buffer[, encoding[, errors]]) -> str", "",
     "Create a new string object from the given object. If encoding or",
     "errors is specified, then the object must expose a data buffer",
     "that will be decoded using the given encoding and error handler.",
     "Otherwise, returns the result of object.__str__() (if defined)", "or repr(object).",
     "encoding defaults to sys.getdefaultencoding().", "errors defaults to 'strict'."]]

def ofNumber : List Feature := [
  maker, primitive "__repr__", primitive "__hash__", primitive "__getattribute__",
  primitive "__lt__", primitive "__le__", primitive "__eq__", primitive "__ne__",
  primitive "__gt__", primitive "__ge__", primitive "__add__", primitive "__radd__",
  primitive "__sub__", primitive "__rsub__", primitive "__mul__", primitive "__rmul__",
  primitive "__mod__", primitive "__rmod__", primitive "__divmod__", primitive "__rdivmod__",
  primitive "__pow__", primitive "__rpow__", primitive "__neg__", primitive "__pos__",
  primitive "__abs__", primitive "__bool__", primitive "__invert__", primitive "__lshift__",
  primitive "__rlshift__", primitive "__rshift__", primitive "__rrshift__", primitive "__and__",
  primitive "__rand__", primitive "__xor__", primitive "__rxor__", primitive "__or__",
  primitive "__ror__", primitive "__int__", primitive "__float__", primitive "__floordiv__",
  primitive "__rfloordiv__", primitive "__truediv__", primitive "__rtruediv__",
  primitive "__index__",
  noted .operation "conjugate" none ["Returns self, the complex conjugate of any int."],
  noted .operation "bit_length" (some "($self, /)")
    ["Number of bits necessary to represent self in binary.", "", ">>> bin(37)", "'0b100101'",
     ">>> (37).bit_length()", "6"],
  noted .operation "bit_count" (some "($self, /)")
    ["Number of ones in the binary representation of the absolute value of self.", "",
     "Also known as the population count.", "", ">>> bin(13)", "'0b1101'", ">>> (13).bit_count()",
     "3"],
  noted .operation "to_bytes" (some "($self, /, length=1, byteorder='big', *, signed=False)")
    ["Return an array of bytes representing an integer.", "", "  length",
     "    Length of bytes object to use.  An OverflowError is raised if the",
     "    integer is not representable with the given number of bytes.  Default",
     "    is length 1.", "  byteorder",
     "    The byte order used to represent the integer.  If byteorder is 'big',",
     "    the most significant byte is at the beginning of the byte array.  If",
     "    byteorder is 'little', the most significant byte is at the end of the",
     "    byte array.  To request the native byte order of the host system, use",
     "    `sys.byteorder' as the byte order value.  Default is to use 'big'.", "  signed",
     "    Determines whether two's complement is used to represent the integer.",
     "    If signed is False and a negative integer is given, an OverflowError", "    is raised."],
  noted .shared "from_bytes" (some "($type, /, bytes, byteorder='big', *, signed=False)")
    ["Return the integer represented by the given array of bytes.", "", "  bytes",
     "    Holds the array of bytes to convert.  The argument must either",
     "    support the buffer protocol or be an iterable object producing bytes.",
     "    Bytes and bytearray are examples of built-in objects that support the",
     "    buffer protocol.", "  byteorder",
     "    The byte order used to represent the integer.  If byteorder is 'big',",
     "    the most significant byte is at the beginning of the byte array.  If",
     "    byteorder is 'little', the most significant byte is at the end of the",
     "    byte array.  To request the native byte order of the host system, use",
     "    `sys.byteorder' as the byte order value.  Default is to use 'big'.", "  signed",
     "    Indicates whether two's complement is used to represent the integer."],
  noted .operation "as_integer_ratio" (some "($self, /)")
    ["Return integer ratio.", "",
     "Return a pair of integers, whose ratio is exactly equal to the original int",
     "and with a positive denominator.", "", ">>> (10).as_integer_ratio()", "(10, 1)",
     ">>> (-10).as_integer_ratio()", "(-10, 1)", ">>> (0).as_integer_ratio()", "(0, 1)"],
  noted .operation "__trunc__" none ["Truncating an Integral returns itself."],
  noted .operation "__floor__" none ["Flooring an Integral returns itself."],
  noted .operation "__ceil__" none ["Ceiling of an Integral returns itself."],
  noted .operation "__round__" (some "($self, ndigits=<unrepresentable>, /)")
    ["Rounding an Integral returns itself.", "",
     "Rounding with an ndigits argument also returns an integer."],
  noted .operation "__getnewargs__" (some "($self, /)") [],
  noted .operation "__format__" (some "($self, format_spec, /)") [],
  noted .operation "__sizeof__" (some "($self, /)") ["Returns size in memory, in bytes."],
  noted .property "real" none ["the real part of a complex number"],
  noted .property "imag" none ["the imaginary part of a complex number"],
  noted .property "numerator" none ["the numerator of a rational number in lowest terms"],
  noted .property "denominator" none ["the denominator of a rational number in lowest terms"],
  fixed "__doc__"
    ["int([x]) -> integer", "int(x, base=10) -> integer", "",
     "Convert a number or string to an integer, or return 0 if no arguments",
     "are given.  If x is a number, return x.__int__().  For floating point",
     "numbers, this truncates towards zero.", "",
     "If x is not a number or if base is given, then x must be a string,",
     "bytes, or bytearray instance representing an integer literal in the",
     "given base.  The literal can be preceded by '+' or '-' and be surrounded",
     "by whitespace.  The base defaults to 10.  Valid bases are 0 and 2-36.",
     "Base 0 means to interpret the base from the string as an integer literal.",
     ">>> int('0b100', base=0)", "4"]]

def ofTuple : List Feature := [
  maker, primitive "__repr__", primitive "__hash__", primitive "__getattribute__",
  primitive "__lt__", primitive "__le__", primitive "__eq__", primitive "__ne__",
  primitive "__gt__", primitive "__ge__", primitive "__iter__", primitive "__len__",
  primitive "__getitem__", primitive "__add__", primitive "__mul__", primitive "__rmul__",
  primitive "__contains__", noted .operation "__getnewargs__" (some "($self, /)") [],
  noted .operation "index" (some "($self, value, start=0, stop=sys.maxsize, /)")
    ["Return first index of value.", "", "Raises ValueError if the value is not present."],
  noted .operation "count" (some "($self, value, /)") ["Return number of occurrences of value."],
  noted .shared "__class_getitem__" none ["See PEP 585"],
  fixed "__doc__"
    ["Built-in immutable sequence.", "",
     "If no argument is given, the constructor returns an empty tuple.",
     "If iterable is specified the tuple is initialized from iterable's items.", "",
     "If the argument is a tuple, the return value is the same object."]]

def ofNothing : List Feature := [
  maker, primitive "__repr__", primitive "__bool__", fixed "__doc__" []]

def ofAnything : List Feature := [
  maker, primitive "__repr__", primitive "__hash__", primitive "__str__",
  primitive "__getattribute__", primitive "__setattr__", primitive "__delattr__",
  primitive "__lt__", primitive "__le__", primitive "__eq__", primitive "__ne__",
  primitive "__gt__", primitive "__ge__", primitive "__init__",
  noted .operation "__reduce_ex__" (some "($self, protocol, /)") ["Helper for pickle."],
  noted .operation "__reduce__" (some "($self, /)") ["Helper for pickle."],
  noted .operation "__getstate__" (some "($self, /)") ["Helper for pickle."],
  noted .shared "__subclasshook__" none
    ["Abstract classes can override this to customize issubclass().", "",
     "This is invoked early on by abc.ABCMeta.__subclasscheck__().",
     "It should return True, False or NotImplemented.  If it returns",
     "NotImplemented, the normal algorithm is used.  Otherwise, it",
     "overrides the normal algorithm (and the outcome is cached).", ""],
  noted .shared "__init_subclass__" none
    ["This method is called when a class is subclassed.", "",
     "The default implementation does nothing. It may be", "overridden to extend subclasses.", ""],
  noted .operation "__format__" (some "($self, format_spec, /)") ["Default object formatter."],
  noted .operation "__sizeof__" (some "($self, /)") ["Size of object in memory, in bytes."],
  noted .operation "__dir__" (some "($self, /)") ["Default dir() implementation."],
  noted .property "__class__" none ["the object's class"],
  fixed "__doc__"
    ["The base class of the class hierarchy.", "",
     "When called, it accepts no arguments and returns a new featureless",
     "instance that has no instance attributes and cannot be given any.", ""]]

def ofFamily : List Feature := [
  maker, primitive "__repr__", primitive "__call__", primitive "__getattribute__",
  primitive "__setattr__", primitive "__delattr__", primitive "__init__", primitive "__or__",
  primitive "__ror__",
  noted .operation "mro" (some "($self, /)") ["Return a type's method resolution order."],
  noted .operation "__subclasses__" (some "($self, /)") ["Return a list of immediate subclasses."],
  noted .shared "__prepare__" none
    ["__prepare__() -> dict", "used to create the namespace for the class statement"],
  noted .operation "__instancecheck__" (some "($self, instance, /)")
    ["Check if an object is an instance."],
  noted .operation "__subclasscheck__" (some "($self, subclass, /)")
    ["Check if a class is a subclass."],
  noted .operation "__dir__" (some "($self, /)") ["Specialized __dir__ implementation for types."],
  noted .operation "__sizeof__" (some "($self, /)")
    ["Return memory consumption of the type object."],
  member "__basicsize__", member "__itemsize__", member "__flags__", member "__weakrefoffset__",
  member "__base__", member "__dictoffset__", member "__mro__", property "__name__",
  property "__qualname__", property "__bases__", property "__module__",
  property "__abstractmethods__", property "__dict__", property "__doc__",
  property "__text_signature__", property "__annotations__"]

def ofCatalogue : List Feature := [
  maker, primitive "__repr__", primitive "__str__", primitive "__getattribute__",
  primitive "__lt__", primitive "__le__", primitive "__eq__", primitive "__ne__",
  primitive "__gt__", primitive "__ge__", primitive "__iter__", primitive "__or__",
  primitive "__ror__", primitive "__ior__", primitive "__len__", primitive "__getitem__",
  primitive "__contains__",
  noted .operation "get" none ["D.get(k[,d]) -> D[k] if k in D, else d.  d defaults to None."],
  noted .operation "keys" none ["D.keys() -> a set-like object providing a view on D's keys"],
  noted .operation "values" none ["D.values() -> an object providing a view on D's values"],
  noted .operation "items" none ["D.items() -> a set-like object providing a view on D's items"],
  noted .operation "copy" none ["D.copy() -> a shallow copy of D"],
  noted .shared "__class_getitem__" none ["See PEP 585"],
  noted .operation "__reversed__" none ["D.__reversed__() -> reverse iterator"],
  fixed "__doc__" [], fixed "__hash__" []]

def ofOperation : List Feature := [
  primitive "__repr__", primitive "__hash__", primitive "__call__", primitive "__getattribute__",
  primitive "__lt__", primitive "__le__", primitive "__eq__", primitive "__ne__",
  primitive "__gt__", primitive "__ge__", noted .operation "__reduce__" none [],
  member "__module__", property "__doc__", property "__name__", property "__qualname__",
  property "__self__", property "__text_signature__"]

def ofPrimitive : List Feature := [
  primitive "__repr__", primitive "__hash__", primitive "__call__", primitive "__getattribute__",
  primitive "__lt__", primitive "__le__", primitive "__eq__", primitive "__ne__",
  primitive "__gt__", primitive "__ge__", noted .operation "__reduce__" none [], member "__self__",
  property "__objclass__", property "__name__", property "__qualname__", property "__doc__",
  property "__text_signature__"]

def ofOperationOf : List Feature := [
  primitive "__repr__", primitive "__call__", primitive "__getattribute__", primitive "__get__",
  noted .operation "__reduce__" none [], member "__objclass__", member "__name__",
  property "__doc__", property "__qualname__", property "__text_signature__"]

def ofPrimitiveOf : List Feature := [
  primitive "__repr__", primitive "__call__", primitive "__getattribute__", primitive "__get__",
  noted .operation "__reduce__" none [], member "__objclass__", member "__name__",
  property "__doc__", property "__qualname__", property "__text_signature__"]

def ofSharedOf : List Feature := [
  primitive "__repr__", primitive "__call__", primitive "__getattribute__", primitive "__get__",
  member "__objclass__", member "__name__", property "__doc__", property "__qualname__",
  property "__text_signature__"]

def ofPropertyOf : List Feature := [
  primitive "__repr__", primitive "__getattribute__", primitive "__get__", primitive "__set__",
  primitive "__delete__", member "__objclass__", member "__name__", property "__doc__",
  property "__qualname__"]

def ofMemberOf : List Feature := [
  primitive "__repr__", primitive "__getattribute__", primitive "__get__", primitive "__set__",
  primitive "__delete__", noted .operation "__reduce__" none [], member "__objclass__",
  member "__name__", property "__doc__", property "__qualname__"]

def ofDetached : List Feature := [
  maker, primitive "__repr__", primitive "__call__", primitive "__get__", primitive "__init__",
  member "__func__", member "__wrapped__", property "__isabstractmethod__", property "__dict__",
  fixed "__doc__"
    ["staticmethod(function) -> method", "", "Convert a function to be a static method.", "",
     "A static method does not receive an implicit first argument.",
     "To declare a static method, use this idiom:", "", "     class C:", "         @staticmethod",
     "         def f(arg1, arg2, argN):", "             ...", "",
     "It can be called either on the class (e.g. C.f()) or on an instance",
     "(e.g. C().f()). Both the class and the instance are ignored, and",
     "neither is passed implicitly as the first argument to the method.", "",
     "Static methods in Python are similar to those found in Java or C++.",
     "For a more advanced concept, see the classmethod builtin."]]

def ofApplied : List Feature := [
  maker, primitive "__repr__", primitive "__hash__", primitive "__call__",
  primitive "__getattribute__", primitive "__lt__", primitive "__le__", primitive "__eq__",
  primitive "__ne__", primitive "__gt__", primitive "__ge__", primitive "__iter__",
  primitive "__or__", primitive "__ror__", primitive "__getitem__",
  noted .operation "__mro_entries__" none [], noted .operation "__instancecheck__" none [],
  noted .operation "__subclasscheck__" none [], noted .operation "__reduce__" none [],
  noted .operation "__dir__" none [], member "__origin__", member "__args__",
  member "__unpacked__",
  noted .property "__parameters__" none ["Type variables in the GenericAlias."],
  property "__typing_unpacked_tuple_args__",
  fixed "__doc__"
    ["Represent a PEP 585 generic type", "",
     "E.g. for t = list[int], t.__origin__ is list and t.__args__ is (int,)."]]

def ofTruth : List Feature := [
  maker, primitive "__repr__", primitive "__and__", primitive "__rand__", primitive "__xor__",
  primitive "__rxor__", primitive "__or__", primitive "__ror__",
  fixed "__doc__"
    ["bool(x) -> bool", "", "Returns True when the argument x is true, False otherwise.",
     "The builtins True and False are the only two instances of the class bool.",
     "The class bool is a subclass of the class int, and cannot be subclassed."]]

def ofDictionary : List Feature := [
  maker, primitive "__repr__", fixed "__hash__" [], primitive "__getattribute__",
  primitive "__lt__", primitive "__le__", primitive "__eq__", primitive "__ne__",
  primitive "__gt__", primitive "__ge__", primitive "__iter__", primitive "__init__",
  primitive "__or__", primitive "__ror__", primitive "__ior__", primitive "__len__",
  noted .operation "__getitem__" none ["x.__getitem__(y) <==> x[y]"], primitive "__setitem__",
  primitive "__delitem__",
  noted .operation "__contains__" (some "($self, key, /)")
    ["True if the dictionary has the specified key, else False."],
  noted .operation "__sizeof__" none ["D.__sizeof__() -> size of D in memory, in bytes"],
  noted .operation "get" (some "($self, key, default=None, /)")
    ["Return the value for key if key is in the dictionary, else default."],
  noted .operation "setdefault" (some "($self, key, default=None, /)")
    ["Insert key with a value of default if key is not in the dictionary.", "",
     "Return the value for key if key is in the dictionary, else default."],
  noted .operation "pop" (some "($self, key, default=<unrepresentable>, /)")
    ["D.pop(k[,d]) -> v, remove specified key and return the corresponding value.", "",
     "If the key is not found, return the default if given; otherwise,", "raise a KeyError."],
  noted .operation "popitem" (some "($self, /)")
    ["Remove and return a (key, value) pair as a 2-tuple.", "",
     "Pairs are returned in LIFO (last-in, first-out) order.",
     "Raises KeyError if the dict is empty."],
  noted .operation "keys" none ["D.keys() -> a set-like object providing a view on D's keys"],
  noted .operation "items" none ["D.items() -> a set-like object providing a view on D's items"],
  noted .operation "values" none ["D.values() -> an object providing a view on D's values"],
  noted .operation "update" none
    ["D.update([E, ]**F) -> None.  Update D from dict/iterable E and F.",
     "If E is present and has a .keys() method, then does:  for k in E: D[k] = E[k]",
     "If E is present and lacks a .keys() method, then does:  for k, v in E: D[k] = v",
     "In either case, this is followed by: for k in F:  D[k] = F[k]"],
  noted .shared "fromkeys" (some "($type, iterable, value=None, /)")
    ["Create a new dictionary with keys from iterable and values set to value."],
  noted .operation "clear" none ["D.clear() -> None.  Remove all items from D."],
  noted .operation "copy" none ["D.copy() -> a shallow copy of D"],
  noted .operation "__reversed__" (some "($self, /)")
    ["Return a reverse iterator over the dict keys."],
  noted .shared "__class_getitem__" none ["See PEP 585"],
  fixed "__doc__"
    ["dict() -> new empty dictionary",
     "dict(mapping) -> new dictionary initialized from a mapping object's",
     "    (key, value) pairs", "dict(iterable) -> new dictionary initialized as if via:",
     "    d = \x7b\x7d", "    for k, v in iterable:", "        d[k] = v",
     "dict(**kwargs) -> new dictionary initialized with the name=value pairs",
     "    in the keyword argument list.  For example:  dict(one=1, two=2)"]]

end Catalogue

namespace Family

def features : Family → List Feature
  | text => Catalogue.ofText
  | number => Catalogue.ofNumber
  | tuple => Catalogue.ofTuple
  | nothing => Catalogue.ofNothing
  | anything => Catalogue.ofAnything
  | family => Catalogue.ofFamily
  | catalogue => Catalogue.ofCatalogue
  | operation => Catalogue.ofOperation
  | primitive => Catalogue.ofPrimitive
  | operationOf => Catalogue.ofOperationOf
  | primitiveOf => Catalogue.ofPrimitiveOf
  | sharedOf => Catalogue.ofSharedOf
  | propertyOf => Catalogue.ofPropertyOf
  | memberOf => Catalogue.ofMemberOf
  | detached => Catalogue.ofDetached
  | applied => Catalogue.ofApplied
  | truth => Catalogue.ofTruth
  | dictionary => Catalogue.ofDictionary

/-- The note on a family, if that is not the entry for notes in its catalogue. -/
def note : Family → List String
  | family => [
    "type(object) -> the object's type",
    "type(name, bases, dict, **kwds) -> a new type"]
  | _ => []

def signature : Family → Option String
  | tuple => some "(iterable=(), /)"
  | anything => some "()"
  | _ => none

end Family

end LoopLang.Prompt
