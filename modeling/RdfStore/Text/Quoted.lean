/-!
# Escaped values

The written form of a literal value between double quotes: the backslash, the double quote and
the three layout characters get a backslash in front, everything else stands for itself.
`unescape` reads more than `escape` writes: a backslash before any other character stands for
that character, and a backslash at the very end for itself. `unescape_escape` says that reading
recovers every value.
-/

namespace RdfStore.Text

/-- The written form of one character of a value. -/
def escapeChar (c : Char) : List Char :=
  if c = '\\' then ['\\', '\\']
  else if c = '"' then ['\\', '"']
  else if c = '\n' then ['\\', 'n']
  else if c = '\r' then ['\\', 'r']
  else if c = '\t' then ['\\', 't']
  else [c]

/-- The written form of a value. -/
def escape (value : List Char) : List Char := value.flatMap escapeChar

/-- The character that a backslash in front of another one stands for. -/
def unescapeChar (c : Char) : Char :=
  if c = 'n' then '\n' else if c = 't' then '\t' else if c = 'r' then '\r' else c

/-- The value of a written form. -/
def unescape : List Char → List Char
  | [] => []
  | ['\\'] => ['\\']
  | '\\' :: c :: text => unescapeChar c :: unescape text
  | c :: text => c :: unescape text

theorem unescape_cons_of_ne {c : Char} (h : c ≠ '\\') (text : List Char) :
    unescape (c :: text) = c :: unescape text := by
  rw [unescape]
  · intro eq; exact absurd eq h
  · intro d rest eq; exact absurd eq h

theorem unescape_escapeChar (c : Char) (text : List Char) :
    unescape (escapeChar c ++ text) = c :: unescape text := by
  unfold escapeChar
  split
  · subst_vars; rfl
  split
  · subst_vars; rfl
  split
  · subst_vars; rfl
  split
  · subst_vars; rfl
  split
  · subst_vars; rfl
  rename_i h _ _ _ _
  exact unescape_cons_of_ne h text

/-- Reading what was written recovers the value. -/
theorem unescape_escape (value : List Char) : unescape (escape value) = value := by
  induction value with
  | nil => rfl
  | cons c value ih =>
    rw [escape, List.flatMap_cons, unescape_escapeChar]
    exact congrArg (c :: ·) ih

/-- A written form stays on one line and holds no tab. -/
theorem layout_not_mem_escape {c : Char} (layout : c = '\n' ∨ c = '\r' ∨ c = '\t')
    (value : List Char) : c ∉ escape value := by
  intro mem
  obtain ⟨d, -, inner⟩ := List.mem_flatMap.1 mem
  unfold escapeChar at inner
  grind

end RdfStore.Text
