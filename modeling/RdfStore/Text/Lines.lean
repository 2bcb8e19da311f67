/-!
# Lines of a text

A line ends at a line feed, and a carriage return right before that line feed belongs to the
ending; a carriage return elsewhere is an ordinary character. A text that ends with a line feed
has no further, empty line.
-/

namespace RdfStore.Text

/-- The line without the carriage return that closes it, if one does. -/
def dropReturn (line : List Char) : List Char :=
  if line.getLast? = some '\r' then line.dropLast else line

/-- The lines of a text; the first argument holds the open line, last character first. -/
def linesFrom : List Char → List Char → List (List Char)
  | [], [] => []
  | line, [] => [line.reverse]
  | line, c :: text =>
    if c = '\n' then dropReturn line.reverse :: linesFrom [] text else linesFrom (c :: line) text

/-- The lines of a text, without their endings. -/
def lines (text : List Char) : List (List Char) := linesFrom [] text

/-- Lines joined by line feeds. -/
def joinLines : List (List Char) → List Char
  | [] => []
  | [line] => line
  | line :: rest => line ++ '\n' :: joinLines rest

theorem linesFrom_of_not_mem {open_ text : List Char} (absent : '\n' ∉ text)
    (some_ : open_ ≠ [] ∨ text ≠ []) : linesFrom open_ text = [open_.reverse ++ text] := by
  induction text generalizing open_ with
  | nil => cases open_ <;> simp_all [linesFrom]
  | cons c text ih =>
    simp only [List.mem_cons, not_or] at absent
    simp only [linesFrom, Ne.symm absent.1, if_false]
    rw [ih absent.2 (Or.inl (by simp))]
    simp

/-- A text on one line is its own only line. -/
theorem lines_of_not_mem {text : List Char} (absent : '\n' ∉ text) (some_ : text ≠ []) :
    lines text = [text] := by
  exact linesFrom_of_not_mem absent (Or.inr some_)

theorem linesFrom_append {open_ front : List Char} (absent : '\n' ∉ front) (text : List Char) :
    linesFrom open_ (front ++ '\n' :: text) =
      dropReturn (open_.reverse ++ front) :: linesFrom [] text := by
  induction front generalizing open_ with
  | nil => rw [List.append_nil, List.nil_append, linesFrom, if_pos rfl]
  | cons c front ih =>
    simp only [List.mem_cons, not_or] at absent
    rw [List.cons_append, linesFrom, if_neg (Ne.symm absent.1), ih absent.2, List.reverse_cons,
      List.append_assoc, List.singleton_append]

/-- The first line of a text reaches to its first line feed. -/
theorem lines_append {front : List Char} (absent : '\n' ∉ front) (text : List Char) :
    lines (front ++ '\n' :: text) = dropReturn front :: lines text :=
  linesFrom_append absent text

end RdfStore.Text
