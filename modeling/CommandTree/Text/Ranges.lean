/-!
# Tables of code points

A property of characters is kept as a list of closed ranges of code points, in ascending order.
-/

namespace CommandTree.Text

/-- Whether one of the closed ranges holds the code point. -/
def covers (ranges : List (Nat × Nat)) (point : Nat) : Bool :=
  ranges.any fun range => range.1 ≤ point && point ≤ range.2

end CommandTree.Text
