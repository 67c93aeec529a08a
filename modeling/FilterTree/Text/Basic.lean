namespace FilterTree.Text

/-- The Unicode property `White_Space`. -/
def isBlank (c : Char) : Bool :=
  ('\t' ≤ c && c ≤ '\r') || c = ' ' || c = '\u0085' || c = '\u00a0' || c = '\u1680' ||
    ('\u2000' ≤ c && c ≤ '\u200a') || c = '\u2028' || c = '\u2029' || c = '\u202f' ||
    c = '\u205f' || c = '\u3000'

def words (s : String) : List String :=
  ((s.toList.splitOnP isBlank).filter (!·.isEmpty)).map String.ofList

def trimEnd (s : String) : String :=
  String.ofList (s.toList.reverse.dropWhile isBlank).reverse

/-- The characters of a line without the carriage return in front of its line feed. -/
def withoutReturn (cs : List Char) : List Char :=
  if cs.getLast? = some '\r' then cs.dropLast else cs

/-- The lines of a text. A line feed ends a line, with a carriage return or without; at the very end
of the text it opens no further line. What comes after the last line feed is kept as it is. -/
def lines (s : String) : List String :=
  let pieces := s.toList.splitOn '\n'
  let ended := pieces.dropLast.map withoutReturn
  let last := pieces.getLast?.filter (!·.isEmpty)
  (ended ++ last.toList).map String.ofList

/-- The non-empty texts of the list with `separator` between each two. There is never a separator at
either end or two side by side. -/
def joinFilled (separator : String) (parts : List String) : String :=
  separator.intercalate (parts.filter (· ≠ ""))

@[simp] theorem joinFilled_nil (separator : String) : joinFilled separator [] = "" := by
  simp [joinFilled]

theorem joinFilled_empty_cons (separator : String) (parts : List String) :
    joinFilled separator ("" :: parts) = joinFilled separator parts := by
  simp [joinFilled]

/-- The text with spaces after it, up to `width` characters; it is never shortened. -/
def padRight (width : Nat) (s : String) : String :=
  s ++ String.ofList (List.replicate (width - s.length) ' ')

def padLeft (width : Nat) (s : String) : String :=
  String.ofList (List.replicate (width - s.length) ' ') ++ s

def opening (count : Nat) (s : String) : String := String.ofList (s.toList.take count)

end FilterTree.Text
