import CommandTree.TokenClass

/-!
# Declaring classes of tokens

A host declares a class of tokens by its kind and by as many limits as it likes, up to the two that
a class has. A limit that is not given has its usual value; one that is given is taken as it is.
-/

namespace CommandTree

/-- The kinds of classes of tokens. -/
inductive TokenKind where
  | integer
  | long
  | double
  | boolean
  | word
  | rest
deriving DecidableEq

namespace TokenKind

/-- The class of the kind with two limits; truth values have none. -/
def withLimits (kind : TokenKind) (first second : Datum) : TokenClass :=
  match kind with
  | .integer => .integer first second
  | .long => .long first second
  | .double => .double first second
  | .boolean => .boolean
  | .word => .word first second
  | .rest => .rest first second

/-- The usual limits of a class of the kind. -/
def usualLimits : TokenKind → Datum × Datum
  | .integer => (.integer integerLeast, .integer integerGreatest)
  | .long => (.integer longLeast, .integer longGreatest)
  | .double => (.double (.infinite true), .double (.infinite false))
  | .boolean => (.null, .null)
  | .word | .rest => (.integer 0, .null)

/-- What declares a class of the kind, as refusals call it. -/
def maker : TokenKind → String
  | .integer => "IntegerParser.__init__"
  | .long => "LongParser.__init__"
  | .double => "DoubleParser.__init__"
  | .boolean => "BooleanParser"
  | .word | .rest => "WordParser.__init__"

end TokenKind

namespace TokenClass

/-- The class of a kind with the given limits, of which there may be fewer than the class has. -/
def declare (kind : TokenKind) (limits : List Datum) : Except Fault TokenClass :=
  let (first, second) := kind.usualLimits
  match kind, limits with
  | .boolean, _ :: _ => .error (.use (.argumentsRefused kind.maker))
  | kind, [] => .ok (kind.withLimits first second)
  | kind, [least] => .ok (kind.withLimits least second)
  | kind, [least, greatest] => .ok (kind.withLimits least greatest)
  | kind, limits => .error (.use (.argumentsExceeded kind.maker 1 3 (limits.length + 1)))

end TokenClass

end CommandTree
