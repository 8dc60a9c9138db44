import CommandTree.Parameter.Basic
import CommandTree.ParseFailure
import CommandTree.Report.Basic

/-!
# Faults

Everything that the library refuses, as causes. Each group of faults belongs to one part of the
library, and `Fault` gathers the groups. A fault has a message, in the words that a host is shown,
and a kind, by which a host can tell refusals of the wrong kind of thing from refusals of a wrong
one.

* `exists_of_bind_eq_ok`: what comes of two steps comes of the second, after the first
-/

namespace CommandTree

open Text

/-- The kinds of faults. -/
inductive FaultKind where
  | type
  | value
  | state
  | member
  | index
  | key
  | lookup
  | overflow
  /-- There is no room for a result. -/
  | room
  | assertion
  | declaration
  | parse
  | coercion
  | range
  | report
  /-- A kind of the host's own, by its name. -/
  | host (name : String)
deriving DecidableEq

/-! ## Names and data -/

inductive NameFault where
  | notText (role : String)
  | notToken (role name : String)

namespace NameFault

def kind : NameFault → FaultKind
  | .notText _ => .type
  | .notToken _ _ => .value

def message : NameFault → String
  | .notText role => role ++ " name must be a string"
  | .notToken role name => role ++ " name " ++ quoted name ++ " must be a non-empty single token"

end NameFault

inductive DatumFault where
  | notIterable (kindName : String)
  | notMapping (kindName : String)
  | unhashable (kindName : String)
  /-- A member of a list of pairs is not a sequence. -/
  | pairNotSequence (index : Nat)
  /-- A member of a list of pairs has another length than two. -/
  | pairLength (index length : Nat)
  | noAttribute (kindName member : String)
  /-- An integer is beyond the range of doubles. -/
  | beyondDouble
  /-- An integer has more digits than are read, so many if they are told, or than are written. -/
  | tooManyDigits (found : Option Nat)
  | notNumeral (kindName : String)
  | badNumeral (shown : String)
  | noDifference (kindName : String)
  | noSize (kindName : String)
  | badOperand (operation kindName : String)
  | argumentCount (operation expected : String) (given : Nat)
  | notEnough (expected found : Nat)
  | outOfText
  /-- Two data have no order. -/
  | incomparable (relation leftKind rightKind : String)
  /-- What is no number is asked for its whole part. -/
  | nanAsInteger
  /-- An infinity is asked for its whole part. -/
  | infinityAsInteger
  | notSubscriptable (kindName : String)
  /-- A place in a collection is no integer. -/
  | placeNotInteger

namespace DatumFault

def kind : DatumFault → FaultKind
  | .pairLength _ _ | .tooManyDigits _ | .badNumeral _ | .notEnough _ _ | .nanAsInteger => .value
  | .noAttribute _ _ => .member
  | .beyondDouble | .infinityAsInteger => .overflow
  | .outOfText => .index
  | _ => .type

def message : DatumFault → String
  | .notIterable kindName => "'" ++ kindName ++ "' object is not iterable"
  | .notMapping kindName => "'" ++ kindName ++ "' object is not a mapping"
  | .unhashable kindName => "unhashable type: '" ++ kindName ++ "'"
  | .pairNotSequence index =>
    "cannot convert dictionary update sequence element #" ++ Nat.repr index ++ " to a sequence"
  | .pairLength index length =>
    "dictionary update sequence element #" ++ Nat.repr index ++ " has length " ++ Nat.repr length
      ++ "; 2 is required"
  | .noAttribute kindName member =>
    "'" ++ kindName ++ "' object has no attribute '" ++ member ++ "'"
  | .beyondDouble => "int too large to convert to float"
  | .tooManyDigits found =>
    "Exceeds the limit (" ++ Nat.repr digitLimit ++ " digits) for integer string conversion"
      ++ found.elim "" (fun n => ": value has " ++ Nat.repr n ++ " digits")
      ++ "; use sys.set_int_max_str_digits() to increase the limit"
  | .notNumeral kindName =>
    "float() argument must be a string or a real number, not '" ++ kindName ++ "'"
  | .badNumeral shown => "could not convert string to float: " ++ shown
  | .noDifference kindName =>
    "unsupported operand type(s) for -: '" ++ kindName ++ "' and 'int'"
  | .noSize kindName => "object of type '" ++ kindName ++ "' has no len()"
  | .badOperand operation kindName =>
    "bad operand type for " ++ operation ++ "(): '" ++ kindName ++ "'"
  | .argumentCount operation expected given =>
    operation ++ "() takes " ++ expected ++ " (" ++ Nat.repr given ++ " given)"
  | .notEnough expected found =>
    "not enough values to unpack (expected at least " ++ Nat.repr expected ++ ", got "
      ++ Nat.repr found ++ ")"
  | .outOfText => "string index out of range"
  | .incomparable relation leftKind rightKind =>
    "'" ++ relation ++ "' not supported between instances of '" ++ leftKind ++ "' and '"
      ++ rightKind ++ "'"
  | .nanAsInteger => "cannot convert float NaN to integer"
  | .infinityAsInteger => "cannot convert float infinity to integer"
  | .notSubscriptable kindName => "'" ++ kindName ++ "' object is not subscriptable"
  | .placeNotInteger => "slice indices must be integers or None or have an __index__ method"

end DatumFault

/-- What can be wrong with giving a function another name. -/
inductive RenamingFault where
  | notCallable
  | nameNotText
  | notRenamable
  | onlyNameNotText
  | appliedToNonCallable
  | count (given : Nat)
  | accessorNotText
  | readOnly (member : String)
  | sealedType

namespace RenamingFault

def kind : RenamingFault → FaultKind
  | .readOnly _ => .member
  | _ => .type

def message : RenamingFault → String
  | .notCallable => "rename() first argument must be callable"
  | .nameNotText => "rename() second argument must be a string"
  | .notRenamable => "rename() first argument must be a updatable callable"
  | .onlyNameNotText => "@rename() argument must be a string"
  | .appliedToNonCallable => "@rename() must be applied to a callable"
  | .count given => "rename takes 1 to 2 arguments but " ++ Nat.repr given ++ " were given"
  | .accessorNotText => "mirror() argument must be a string"
  | .readOnly member => "nothing can be set through " ++ quoted member
  | .sealedType => "type 'UnsetType' is not an acceptable base type"

end RenamingFault

/-! ## Parameters and values -/

/-- The limit that a fault is about. -/
inductive LimitName where
  | least
  | greatest
  | minLength
  | maxLength
deriving DecidableEq

namespace LimitName

def word : LimitName → String
  | .least => "min"
  | .greatest => "max"
  | .minLength => "min_len"
  | .maxLength => "max_len"

end LimitName

/-- What can be wrong with the declaration of a parameter; `label` is the word for the parameter. -/
inductive ParameterFault where
  | typeExpected (label : String)
  | boundsRefused (type : ValueType) (label : String)
  | boundNotNumber (label : String) (limit : LimitName)
  | boundNotInteger (type : ValueType) (label : String) (limit : LimitName)
  | boundOutside (type : ValueType) (label : String) (limit : LimitName)
  | boundsCrossed (label : String)
  | lengthsRefused (type : ValueType) (label : String)
  | greedyRefused (type : ValueType) (label : String)
  | lengthNotInteger (label : String) (limit : LimitName)
  | lengthNegative (label : String) (limit : LimitName)
  | lengthsCrossed (label : String)
  | positional
  | receiverRepeated
  | unexpected (option : String)

namespace ParameterFault

def kind : ParameterFault → FaultKind
  | .boundOutside _ _ _ | .boundsCrossed _ | .lengthNegative _ _ | .lengthsCrossed _ => .value
  | .positional => .assertion
  | _ => .type

def message : ParameterFault → String
  | .typeExpected label => label ++ " 'type' must be an ArgType"
  | .boundsRefused type label => type.word ++ " " ++ label ++ " cannot declare numeric bounds"
  | .boundNotNumber label limit => label ++ " '" ++ limit.word ++ "' must be a number"
  | .boundNotInteger type label limit =>
    type.word ++ " " ++ label ++ " '" ++ limit.word ++ "' must be an integer"
  | .boundOutside type label limit =>
    label ++ " '" ++ limit.word ++ "' is outside the " ++ type.word ++ " range"
  | .boundsCrossed label => label ++ " 'min' cannot be greater than 'max'"
  | .lengthsRefused type label => type.word ++ " " ++ label ++ " cannot declare length bounds"
  | .greedyRefused type label => type.word ++ " " ++ label ++ " cannot be greedy"
  | .lengthNotInteger label limit => label ++ " '" ++ limit.word ++ "' must be an integer"
  | .lengthNegative label limit => label ++ " '" ++ limit.word ++ "' cannot be negative"
  | .lengthsCrossed label => label ++ " 'min_len' cannot be greater than 'max_len'"
  | .positional => "positional arguments are not allowed"
  | .receiverRepeated => "Argument.__replace__() got multiple values for argument 'self'"
  | .unexpected option =>
    "Argument.__init__() got an unexpected keyword argument '" ++ option ++ "'"

end ParameterFault

/-- Why a raw value cannot be bound to a parameter. -/
inductive BindingFault where
  /-- The raw value cannot be read as the type of the parameter. -/
  | notReadable (parameter : Parameter) (raw : Datum)
  /-- The number that the raw value is read as lies outside the limits. -/
  | outOfLimits (parameter : Parameter) (raw : Datum) (found : Number)
  /-- The text that the raw value is read as has a length outside the limits. -/
  | wrongLength (parameter : Parameter) (raw : Datum) (found : Nat)

namespace BindingFault

def kind : BindingFault → FaultKind
  | .notReadable _ _ => .coercion
  | .outOfLimits _ _ _ | .wrongLength _ _ _ => .range

/-- The parameter that was to be bound. -/
def parameter : BindingFault → Parameter
  | .notReadable p _ | .outOfLimits p _ _ | .wrongLength p _ _ => p

/-- The raw value that was to be bound; one that was not provided counts as nothing. -/
def raw : BindingFault → Datum
  | .notReadable _ raw | .outOfLimits _ raw _ | .wrongLength _ raw _ => raw.orElse .null

def message : BindingFault → String
  | .notReadable p raw =>
    "expected " ++ p.type.word ++ " for " ++ quoted p.name.text ++ ", found " ++ raw.shown
  | .outOfLimits p _ found =>
    p.type.word ++ " " ++ quoted p.name.text ++ " must be between " ++ p.least.plain ++ " and "
      ++ p.greatest.plain ++ ", found " ++ found.text
  | .wrongLength p _ found =>
    "length of " ++ quoted p.name.text ++ " must be between " ++ p.minLength.plain ++ " and "
      ++ (match p.maxLength with | .null => "∞" | longest => longest.plain)
      ++ ", found " ++ Nat.repr found

end BindingFault

/-! ## Nodes, calls and senders -/

/-- What can be wrong with a node or with a registration on it; `label` is the word for the node. -/
inductive NodeFault where
  | notText (label field : String)
  | aliasesNotIterable (label : String)
  | audienceExpected (label : String)
  | childExpected (label : String)
  | parameterExpected (label : String)
  | compiled (label name : String)
  | underItself (label name : String)
  | underAnother (label name parent : String)
  | absent

namespace NodeFault

def kind : NodeFault → FaultKind
  | .compiled _ _ => .state
  | .underItself _ _ | .underAnother _ _ _ => .value
  | .absent => .lookup
  | _ => .type

def message : NodeFault → String
  | .notText label field => label ++ " '" ++ field ++ "' must be a string"
  | .aliasesNotIterable label => label ++ " 'aliases' must be an iterable of strings"
  | .audienceExpected label => label ++ " 'executor' must be an ExecutorType"
  | .childExpected label => label ++ " children must be sub-commands"
  | .parameterExpected label => label ++ " arguments must be Argument instances"
  | .compiled label name => label ++ " " ++ quoted name ++ " is already compiled"
  | .underItself label name =>
    label ++ " " ++ quoted name ++ " cannot be registered under itself"
  | .underAnother label name parent =>
    label ++ " " ++ quoted name ++ " is already registered under " ++ quoted parent
  | .absent => "no such node"

end NodeFault

/-- Why a tree of commands cannot be compiled. -/
inductive DeclarationFault where
  /-- A greedy parameter is followed by others. -/
  | greedyNotLast (parameter usage : String)
  /-- The first parameter has the key of a child or of an alias. -/
  | clash (parameter usage : String)

namespace DeclarationFault

def message : DeclarationFault → String
  | .greedyNotLast parameter usage =>
    "greedy argument " ++ quoted parameter ++ " of " ++ quoted usage ++ " must be the last argument"
  | .clash parameter usage =>
    "argument " ++ quoted parameter ++ " of " ++ quoted usage
      ++ " clashes with a sub-command or alias of the same name"

end DeclarationFault

/-- What else a host can do wrong. -/
inductive UseFault where
  | reportIdNotText
  | reportIdEmpty
  | reportKeyNotText
  | reportPositional
  | reportReceiverRepeated
  | fallbackNotText
  | callKeyNotText
  | callReadOnly
  | handlerNotCallable
  | registrarExpected
  | rootExpectedToCompile
  | rootExpectedToRegister
  | senderNameNotText
  | senderKindExpected
  | permissionsNotIterable
  | branchExpected
  | callbackNotCallable
  | redirectExpected
  | readerExpected
  | wordExpected
  | inputNotText
  | levelUnknown (shown : String)
  | levelExpected (shown : String)
  /-- An operation is given arguments and takes none. -/
  | argumentsRefused (operation : String)
  | argumentMissing (operation argument : String)
  /-- An operation is given more arguments than it takes; the thing that it belongs to counts. -/
  | argumentsExceeded (operation : String) (least greatest given : Nat)

namespace UseFault

def kind : UseFault → FaultKind
  | .reportIdEmpty | .levelUnknown _ => .value
  | .reportPositional => .assertion
  | _ => .type

def message : UseFault → String
  | .reportIdNotText => "command exception error id must be a string"
  | .reportIdEmpty => "command exception error id cannot be empty"
  | .reportKeyNotText => "command exception context key must be a string"
  | .reportPositional => "positional arguments are not allowed"
  | .reportReceiverRepeated =>
    "CommandException.__replace__() got multiple values for argument 'self'"
  | .fallbackNotText => "message handler fallback must be a string"
  | .callKeyNotText => "execution context keys must be strings"
  | .callReadOnly => "'mappingproxy' object does not support item assignment"
  | .handlerNotCallable => "exception handler must be callable"
  | .registrarExpected => "registrar must provide a register() method"
  | .rootExpectedToCompile => "only root commands can be compiled"
  | .rootExpectedToRegister => "only root commands can be registered"
  | .senderNameNotText => "sender name must be a string"
  | .senderKindExpected => "sender kind must be a SenderKind"
  | .permissionsNotIterable =>
    "sender permissions must be an iterable of strings, not a string"
  | .branchExpected => "grammar children must be literal or argument nodes"
  | .callbackNotCallable => "grammar command must be callable"
  | .redirectExpected => "literal redirect must be a literal node"
  | .readerExpected => "argument parser must provide a parse() method"
  | .wordExpected => "registered commands must be literal nodes"
  | .inputNotText => "command input must be a string"
  | .levelUnknown shown => "Unknown level: " ++ shown
  | .levelExpected shown => "Level not an integer or a valid string: " ++ shown
  | .argumentsRefused operation => operation ++ "() takes no arguments"
  | .argumentMissing operation argument =>
    operation ++ "() missing 1 required positional argument: '" ++ argument ++ "'"
  | .argumentsExceeded operation least greatest given =>
    operation ++ "() takes "
      ++ (if least = greatest then "" else "from " ++ Nat.repr least ++ " to ")
      ++ Nat.repr greatest ++ " positional arguments but " ++ Nat.repr given ++ " were given"

end UseFault

/-! ## Message templates -/

/-- What can be wrong with a message template, or with filling its gaps. -/
inductive TemplateFault where
  | loneOpening
  | loneClosing
  | positionalField
  | bracesInName
  | unclosedField
  | conversionMissing
  | conversionNotClosed
  | unclosedSpec
  | conversionUnknown (c : Char)
  | emptyAttribute
  | strayAfterBracket
  | unclosedBracket
  | tooManyDigits
  | tooDeep
  /-- A kind of data has no such member. -/
  | noKindMember (kindName member : String)
  /-- A kind has a member of that name but nothing to give for it. -/
  | memberUnset (member : String)
  | noModuleMember (module member : String)
  | kindNotSubscriptable (kindName : String)
  /-- A kind that says what it holds is to say it again. -/
  | notGeneric (shown : String)
  | indexNotInteger (kindName : String)
  | indexRange (what : String)
  | keyMissing (shown : String)
  | specUnsupported (kindName : String)
  | specInvalid (spec kindName : String)
  | precisionMissing
  | precisionTooBig
  /-- A text would be longer than texts can be. There are no words for this. -/
  | tooLong
  | twoSeparators
  | separatorRefused (separator : Char) (code : Char)
  | codeUnknown (code : Char) (kindName : String)
  | signOnText
  | spaceOnText
  | zeroOnText
  | alternateOnText
  | paddingOnText
  | precisionOnInteger
  | zeroOnInteger
  | signOnCharacter
  | alternateOnCharacter
  | characterTooLarge
  | characterRange

/-- A character in a message: by itself in ASCII, and as an escape otherwise. -/
def characterShown (c : Char) (limit : Nat) : String :=
  if 32 < c.toNat && c.toNat < limit then String.singleton c
  else "\\x" ++ String.ofList (Nat.toDigits 16 c.toNat)

namespace TemplateFault

def kind : TemplateFault → FaultKind
  | .kindNotSubscriptable _ | .notGeneric _ | .indexNotInteger _ | .specUnsupported _ => .type
  | .noKindMember _ _ | .memberUnset _ | .noModuleMember _ _ => .member
  | .tooLong => .room
  | .indexRange _ => .index
  | .keyMissing _ => .key
  | .characterTooLarge | .characterRange => .overflow
  | _ => .value

def message : TemplateFault → String
  | .loneOpening => "Single '\x7b' encountered in format string"
  | .loneClosing => "Single '\x7d' encountered in format string"
  | .positionalField => "Format string contains positional fields"
  | .bracesInName => "unexpected '\x7b' in field name"
  | .unclosedField => "expected '\x7d' before end of string"
  | .conversionMissing => "end of string while looking for conversion specifier"
  | .conversionNotClosed => "expected ':' after conversion specifier"
  | .unclosedSpec => "unmatched '\x7b' in format spec"
  | .conversionUnknown c => "Unknown conversion specifier " ++ characterShown c 127
  | .emptyAttribute => "Empty attribute in format string"
  | .strayAfterBracket => "Only '.' or '[' may follow ']' in format field specifier"
  | .unclosedBracket => "Missing ']' in format string"
  | .tooManyDigits => "Too many decimal digits in format string"
  | .tooDeep => "Max string recursion exceeded"
  | .noKindMember kindName member =>
    "type object '" ++ kindName ++ "' has no attribute '" ++ member ++ "'"
  | .memberUnset member => member
  | .noModuleMember module member =>
    "module '" ++ module ++ "' has no attribute '" ++ member ++ "'"
  | .notGeneric shown => shown ++ " is not a generic class"
  | .kindNotSubscriptable kindName => "type '" ++ kindName ++ "' is not subscriptable"
  | .indexNotInteger kindName =>
    if kindName = "str" then "string indices must be integers, not 'str'"
    else (if kindName = "bytes" then "byte" else kindName)
      ++ " indices must be integers or slices, not str"
  | .indexRange what => what ++ "index out of range"
  | .keyMissing shown => shown
  | .specUnsupported kindName =>
    "unsupported format string passed to " ++ kindName ++ ".__format__"
  | .specInvalid spec kindName =>
    "Invalid format specifier '" ++ spec ++ "' for object of type '" ++ kindName ++ "'"
  | .precisionMissing => "Format specifier missing precision"
  | .precisionTooBig => "precision too big"
  | .tooLong => ""
  | .twoSeparators => "Cannot specify both ',' and '_'."
  | .separatorRefused separator code =>
    "Cannot specify '" ++ String.singleton separator ++ "' with '" ++ characterShown code 128
      ++ "'."
  | .codeUnknown code kindName =>
    "Unknown format code '" ++ characterShown code 128 ++ "' for object of type '" ++ kindName
      ++ "'"
  | .signOnText => "Sign not allowed in string format specifier"
  | .spaceOnText => "Space not allowed in string format specifier"
  | .zeroOnText => "Negative zero coercion (z) not allowed in string format specifier"
  | .alternateOnText => "Alternate form (#) not allowed in string format specifier"
  | .paddingOnText => "'=' alignment not allowed in string format specifier"
  | .precisionOnInteger => "Precision not allowed in integer format specifier"
  | .zeroOnInteger => "Negative zero coercion (z) not allowed in integer format specifier"
  | .signOnCharacter => "Sign not allowed with integer format specifier 'c'"
  | .alternateOnCharacter => "Alternate form (#) not allowed with integer format specifier 'c'"
  | .characterTooLarge => "Python int too large to convert to C long"
  | .characterRange => "%c arg not in range(0x110000)"

end TemplateFault

/-! ## All faults -/

/-- Everything that can go wrong. -/
inductive Fault where
  | name (f : NameFault)
  | datum (f : DatumFault)
  | renaming (f : RenamingFault)
  | parameter (f : ParameterFault)
  | binding (f : BindingFault)
  | node (f : NodeFault)
  | declaration (f : DeclarationFault)
  | use (f : UseFault)
  | template (f : TemplateFault)
  | parse (f : ParseFailure)
  | report (r : Report)
  /-- A failure of the host's own, by the name of its kind and its message. -/
  | host (kind message : String)

namespace Fault

def kind : Fault → FaultKind
  | .name f => f.kind
  | .datum f => f.kind
  | .renaming f => f.kind
  | .parameter f => f.kind
  | .binding f => f.kind
  | .node f => f.kind
  | .declaration _ => .declaration
  | .use f => f.kind
  | .template f => f.kind
  | .parse _ => .parse
  | .report _ => .report
  | .host kind _ => .host kind

/-- The fault in words. -/
def message : Fault → String
  | .name f => f.message
  | .datum f => f.message
  | .renaming f => f.message
  | .parameter f => f.message
  | .binding f => f.message
  | .node f => f.message
  | .declaration f => f.message
  | .use f => f.message
  | .template f => f.message
  | .parse f => f.text
  | .report r => r.id
  | .host _ message => message

end Fault

/-- What comes of two steps comes of the second, after the first. -/
theorem exists_of_bind_eq_ok {α β : Type} {x : Except Fault α} {next : α → Except Fault β} {b : β}
    (h : x >>= next = .ok b) : ∃ a, x = .ok a ∧ next a = .ok b := by
  cases x with
  | error fault => cases h
  | ok a => exact ⟨a, rfl, h⟩

end CommandTree
