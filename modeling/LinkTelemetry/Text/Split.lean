import LinkTelemetry.Text.Blank

/-!
# Cutting a text into parts

Lines, words, and the parts before and after a mark. A line ends at a line
feed, alone or after a carriage return; a carriage return anywhere else
belongs to its line. Words are what stands between blanks.
-/

namespace LinkTelemetry.Text

/-- The lines of a text. The last one needs no line feed, and a text that
ends with one has no empty line after it. -/
def lines : List Char → List (List Char)
  | [] => []
  | '\n' :: rest => [] :: lines rest
  | '\r' :: '\n' :: rest => [] :: lines rest
  | c :: rest =>
    match lines rest with
    | [] => [[c]]
    | line :: more => (c :: line) :: more

/-- The parts of a text between the characters of one kind; one part at
least. -/
def pieces (p : Char → Bool) : List Char → List (List Char)
  | [] => [[]]
  | c :: rest =>
    if p c then [] :: pieces p rest
    else
      match pieces p rest with
      | [] => [[c]]
      | part :: more => (c :: part) :: more

/-- The words of a text, in order: the parts between blanks that are not
empty. -/
def words (s : List Char) : List (List Char) := (pieces isBlank s).filter (!·.isEmpty)

/-- What stands before and after the first occurrence of `mark`. -/
def splitOnce (mark : Char) : List Char → Option (List Char × List Char)
  | [] => none
  | c :: rest =>
    if c == mark then some ([], rest)
    else (splitOnce mark rest).map fun (before, after) => (c :: before, after)

/-- What stands before and after the last occurrence of `mark`. -/
def splitLast (mark : Char) : List Char → Option (List Char × List Char)
  | [] => none
  | c :: rest =>
    match splitLast mark rest with
    | some (before, after) => some (c :: before, after)
    | none => if c == mark then some ([], rest) else none

/-- The rest of a text that starts with `head`. -/
def dropHead? : List Char → List Char → Option (List Char)
  | [], s => some s
  | _ :: _, [] => none
  | h :: head, c :: s => if h == c then dropHead? head s else none

/-- The rest of a text that ends with `tail`. -/
def dropTail? (tail s : List Char) : Option (List Char) :=
  (dropHead? tail.reverse s.reverse).map List.reverse

/-- What stands before and after the first occurrence of the text `mark`. -/
def splitOnceAt (mark : List Char) : List Char → Option (List Char × List Char)
  | [] => (dropHead? mark []).map fun after => ([], after)
  | c :: rest =>
    match dropHead? mark (c :: rest) with
    | some after => some ([], after)
    | none => (splitOnceAt mark rest).map fun (before, after) => (c :: before, after)

/-- Whether `part` occurs in a text. -/
def contains (part s : List Char) : Bool := (splitOnceAt part s).isSome

end LinkTelemetry.Text
