import Mathlib.Data.List.Infix
import RdfStore.Proofs.Namespaces

/-!
# Extending and shortening one another

`extend` looks at the front of a text, `shorten` at the first place where a namespace occurs, and so
the two undo each other only in part.

* `Namespaces.isShortened_iff`: a text is written with a registered prefix exactly if extending changes
  it, apart from a prefix that stands for itself.
* `Namespaces.extend_shorten`: a text that starts with the first namespace that occurs in it comes back
  when it is shortened and extended, apart from the guard against `//`.
* `Namespaces.shorten_extend`: a text that is written with a prefix has the short form of what it stands
  for if it is that short form, and, where no namespace overlaps the prefix and what it stands for
  (`Namespaces.Clear`), only then.
-/

namespace RdfStore

/-- What is found first in a list in two ways is the same if each could be found in the other way. -/
theorem find?_unique {α : Type} {p q : α → Bool} {a b : α} {l : List α} (first : l.find? p = some a)
    (first' : l.find? q = some b) (picked : q a = true) (picked' : p b = true) : a = b := by
  induction l with
  | nil => cases first
  | cons c rest ih =>
      rw [List.find?_cons] at first first'
      cases here : p c <;> cases here' : q c <;> rw [here] at first <;> rw [here'] at first'
      · exact ih first first'
      · cases first'
        rw [here] at picked'
        cases picked'
      · cases first
        rw [here'] at picked
        cases picked
      · exact Option.some.inj (first.symm.trans first')

/-! ## Pieces that overlap a front -/

namespace Text

variable {piece front text : List Char}

/-- An occurrence of the piece in a text with this front can begin within the front: what is left of the
front there is the beginning of the piece, or has the whole piece. -/
def Meets (piece front : List Char) : Prop :=
  ∃ tail ∈ front.tails, tail ≠ [] ∧ (piece <+: tail ∨ tail <+: piece)

instance (piece front : List Char) : Decidable (Meets piece front) :=
  inferInstanceAs (Decidable (∃ tail ∈ front.tails, _))

theorem meets_of_start {c : Char} {rest : List Char} (here : piece <+: c :: front ++ rest) :
    Meets piece (c :: front) :=
  ⟨c :: front, (List.mem_tails _ _).2 List.suffix_rfl, List.cons_ne_nil c front,
    List.prefix_or_prefix_of_prefix here (List.prefix_append _ rest)⟩

theorem Meets.cons (c : Char) : Meets piece front → Meets piece (c :: front) := by
  rintro ⟨tail, mem, filled, overlap⟩
  have later : tail <:+ c :: front := ((List.mem_tails _ _).1 mem).trans (List.suffix_cons c front)
  exact ⟨tail, (List.mem_tails _ _).2 later, filled, overlap⟩

theorem cut?_cons_of_away {c : Char} (away : ¬piece <+: c :: text) :
    cut? piece (c :: text) = (cut? piece text).map fun parts => (c :: parts.1, parts.2) := by
  have none : stripFront? piece (c :: text) = none := by
    rw [← Option.not_isSome_iff_eq_none, isSome_stripFront?]
    exact away
  rw [cut?, none]

/-- A piece that does not meet the front is cut behind it. -/
theorem cut?_append_of_not_meets (apart : ¬Meets piece front) (rest : List Char) :
    cut? piece (front ++ rest) =
      (cut? piece rest).map fun parts => (front ++ parts.1, parts.2) := by
  induction front with
  | nil => exact Option.map_id'.symm
  | cons c front ih =>
      have away : ¬piece <+: c :: (front ++ rest) := fun here => apart (meets_of_start here)
      rw [List.cons_append, cut?_cons_of_away away, ih fun meets => apart (meets.cons c),
        Option.map_map]
      rfl

/-- A piece that meets the front at most from its first character on is cut there or behind the
front. -/
theorem cut?_append_of_away {rest : List Char} (apart : ¬Meets piece front.tail)
    (away : ¬piece <+: front ++ rest) :
    cut? piece (front ++ rest) =
      (cut? piece rest).map fun parts => (front ++ parts.1, parts.2) := by
  cases front with
  | nil => exact Option.map_id'.symm
  | cons c front =>
      have behind : ¬Meets piece front := apart
      rw [List.cons_append] at away ⊢
      rw [cut?_cons_of_away away, cut?_append_of_not_meets behind, Option.map_map]
      rfl

end Text

namespace Namespaces

variable {ns : Namespaces} {name namespaceUri rest uri : String} {e f : String × String}

/-! ## Prefixes and their namespaces -/

/-- A text has one prefix in front of its first colon. -/
theorem name_unique {name' rest' : String} (plain : ':' ∉ name.toList) (plain' : ':' ∉ name'.toList)
    (same : name ++ ":" ++ rest = name' ++ ":" ++ rest') : name = name' ∧ rest = rest' := by
  have cut (n r : String) (plain : ':' ∉ n.toList) :
      Text.cut? [':'] (n ++ ":" ++ r).toList = some (n.toList, r.toList) :=
    Text.cut?_singleton_eq_some_iff.2 ⟨by simp, plain⟩
  have both := cut name rest plain
  rw [same, cut name' rest' plain', Option.some.injEq, Prod.mk.injEq] at both
  exact ⟨String.toList_inj.1 both.1.symm, String.toList_inj.1 both.2.symm⟩

/-- A prefix has one namespace. -/
theorem entry_unique (registered : e ∈ ns.toList) (registered' : f ∈ ns.toList)
    (same : e.1 = f.1) : e = f := by
  have found : ns.get? e.1 = some e.2 := OrderedMap.mem_entries_iff.1 registered
  have found' : ns.get? f.1 = some f.2 := OrderedMap.mem_entries_iff.1 registered'
  rw [same, found'] at found
  exact Prod.ext same (Option.some.inj found).symm

/-! ## Texts that are written with a prefix -/

theorem isShortened_iff_abbreviates : ns.isShortened uri = true ↔
    ∃ name namespaceUri rest, ns.Abbreviates name namespaceUri rest ∧ uri = name ++ ":" ++ rest := by
  rw [isShortened, Option.isSome_iff_exists]
  constructor
  · rintro ⟨⟨namespaceUri, rest⟩, found⟩
    obtain ⟨name, abbreviates, eq⟩ := split?_eq_some_iff.1 found
    exact ⟨name, namespaceUri, rest, abbreviates, eq⟩
  · rintro ⟨name, namespaceUri, rest, abbreviates, eq⟩
    exact ⟨_, split?_eq_some_iff.2 ⟨name, abbreviates, eq⟩⟩

theorem extend_of_not_shortened (plain : ¬ns.isShortened uri = true) : ns.extend uri = uri := by
  refine extend_eq_self_iff.2 fun name namespaceUri rest abbreviates eq => ?_
  exact absurd (isShortened_iff_abbreviates.2 ⟨name, namespaceUri, rest, abbreviates, eq⟩) plain

/-- A text is written with a registered prefix exactly if extending it changes it or the prefix stands
for itself, also if namespaces are empty. So the two are the same for all texts exactly if no prefix
that can be used stands for itself. -/
theorem isShortened_iff (ns : Namespaces) :
    (∀ uri, ns.isShortened uri = true ↔ ns.extend uri ≠ uri ∨
        ∃ name rest, ns.Abbreviates name (name ++ ":") rest ∧ uri = name ++ ":" ++ rest) ∧
      ((∀ uri, ns.isShortened uri = true ↔ ns.extend uri ≠ uri) ↔
        ∀ e ∈ ns.toList, ':' ∉ e.1.toList → e.2 ≠ e.1 ++ ":") := by
  have changed : ∀ uri, ns.isShortened uri = true ↔ ns.extend uri ≠ uri ∨
      ∃ name rest, ns.Abbreviates name (name ++ ":") rest ∧ uri = name ++ ":" ++ rest := by
    intro uri
    constructor
    · intro shortened
      obtain ⟨name, namespaceUri, rest, abbreviates, rfl⟩ := isShortened_iff_abbreviates.1 shortened
      by_cases own : namespaceUri = name ++ ":"
      · exact Or.inr ⟨name, rest, own ▸ abbreviates, rfl⟩
      · left
        rw [extend_of_abbreviates abbreviates]
        exact fun same => own (String.append_left_inj rest |>.1 same)
    · rintro (other | ⟨name, rest, abbreviates, eq⟩)
      · by_contra plain
        exact other (extend_of_not_shortened plain)
      · exact isShortened_iff_abbreviates.2 ⟨name, _, rest, abbreviates, eq⟩
  refine ⟨changed, fun same e registered plain own => ?_, fun others uri => ?_⟩
  · have abbreviates : ns.Abbreviates e.1 e.2 "" := ⟨registered, plain, by decide⟩
    have shortened := isShortened_iff_abbreviates.2 ⟨_, _, _, abbreviates, rfl⟩
    refine (same _).1 shortened ?_
    rw [extend_of_abbreviates abbreviates, ← own]
  · refine (changed uri).trans (or_iff_left ?_)
    rintro ⟨name, rest, abbreviates, -⟩
    exact others _ abbreviates.registered abbreviates.plain rfl

/-- The standard prefixes stand for something else, so the two are the same there. A prefix that stands
for itself is seen, and changes nothing. -/
theorem isShortened_iff_sample :
    let own := empty.add "a" "a:"
    (∀ uri, standard.isShortened uri = true ↔ standard.extend uri ≠ uri) ∧
      own.isShortened "a:x" = true ∧ own.extend "a:x" = "a:x" := by
  intro own
  obtain ⟨-, same⟩ := isShortened_iff standard
  obtain ⟨seen, -⟩ := isShortened_iff own
  have others : ∀ e ∈ standard.toList, ':' ∉ e.1.toList → e.2 ≠ e.1 ++ ":" := by decide +kernel
  have abbreviates : own.Abbreviates "a" ("a" ++ ":") "x" := ⟨by decide, by decide, by decide⟩
  exact ⟨same.2 others, (seen "a:x").2 (Or.inr ⟨"a", "x", abbreviates, rfl⟩), by decide +kernel⟩

/-- All namespaces are filled, and a text that is written with a prefix is extended to itself. -/
theorem unchanged_by_own_prefix :
    let ns := empty.add "a" "a:"
    (∀ e ∈ ns.toList, e.2 ≠ "") ∧ ¬(ns.isShortened "a:x" = true ↔ ns.extend "a:x" ≠ "a:x") := by
  decide +kernel

/-! ## Extending what was shortened -/

/-- A text that starts with the first namespace that occurs in it comes back when it is shortened and
extended, unless two slashes follow the namespace; and a text without a namespace is left alone. -/
theorem extend_shorten (plain : ∀ e ∈ ns.toList, ':' ∉ e.1.toList) (uri : String) :
    (∀ e rest, ns.occurring? uri = some e → uri = e.2 ++ rest →
        (ns.extend (ns.shorten uri) = uri ↔ ¬['/', '/'] <+: rest.toList ∨ e.2 = e.1 ++ ":")) ∧
      ((∀ e ∈ ns.toList, e.2 ≠ "" → ¬e.2.toList <:+: uri.toList) → ns.shorten uri = uri) := by
  refine ⟨?_, fun absent => shorten_of_none (occurring?_eq_none_iff.2 absent)⟩
  rintro e rest first rfl
  obtain ⟨registered, -, -⟩ := occurs_of_occurring first
  rw [shorten_of_front first]
  by_cases slashes : ['/', '/'] <+: rest.toList
  · have guarded : ns.extend (e.1 ++ ":" ++ rest) = e.1 ++ ":" ++ rest := by
      refine extend_eq_self_iff.2 fun name namespaceUri rest' abbreviates same => ?_
      obtain ⟨-, rfl⟩ := name_unique (plain e registered) abbreviates.plain same
      exact absurd slashes abbreviates.relative
    rw [guarded, String.append_left_inj, or_iff_right (not_not_intro slashes), eq_comm]
  · have abbreviates : ns.Abbreviates e.1 e.2 rest := ⟨registered, plain e registered, slashes⟩
    exact iff_of_true (extend_of_abbreviates abbreviates) (Or.inl slashes)

/-- A URI in a standard namespace comes back unless two slashes follow the namespace, and one in none
is left alone. -/
theorem extend_shorten_sample :
    let person := "http://xmlns.com/foaf/0.1/Person"
    let slashes := "http://schema.org///x"
    standard.extend (standard.shorten person) = person ∧
      standard.extend (standard.shorten slashes) ≠ slashes ∧
      standard.shorten "urn:other" = "urn:other" := by
  intro person slashes
  have plain : ∀ e ∈ standard.toList, ':' ∉ e.1.toList := by decide +kernel
  have foaf : standard.occurring? person = some ("foaf", "http://xmlns.com/foaf/0.1/") := by
    decide +kernel
  have schema : standard.occurring? slashes = some ("schema", "http://schema.org/") := by
    decide +kernel
  have none : standard.occurring? "urn:other" = none := by decide +kernel
  refine ⟨((extend_shorten plain person).1 _ "Person" foaf (by decide)).2 (Or.inl (by decide)),
    fun back => ?_, (extend_shorten plain "urn:other").2 (occurring?_eq_none_iff.1 none)⟩
  have guarded := ((extend_shorten plain slashes).1 _ "//x" schema (by decide)).1 back
  exact absurd guarded (by decide)

/-! ## Shortening what was extended -/

/-- Of two texts that have the first namespaces of each other, the first are the same. -/
theorem occurring?_unique {uri' : String} (first : ns.occurring? uri = some e)
    (first' : ns.occurring? uri' = some f) (occurs : e.2.toList <:+: uri'.toList)
    (occurs' : f.2.toList <:+: uri.toList) : e = f := by
  obtain ⟨-, filled, -⟩ := occurs_of_occurring first
  obtain ⟨-, filled', -⟩ := occurs_of_occurring first'
  exact find?_unique first first' (occurs_iff.2 ⟨filled, occurs⟩) (occurs_iff.2 ⟨filled', occurs'⟩)

/-- No namespace overlaps what an entry puts in front of a local part: neither the prefix and its
colon, nor its own namespace, except from the start of that namespace on. Prefixes have no colon. -/
structure Clear (ns : Namespaces) (e : String × String) : Prop where
  plain : ∀ f ∈ ns.toList, ':' ∉ f.1.toList
  named : ∀ f ∈ ns.toList, f.2 ≠ "" → ¬Text.Meets f.2.toList (e.1 ++ ":").toList
  inside : ∀ f ∈ ns.toList, f.2 ≠ "" → ¬Text.Meets f.2.toList e.2.toList.tail

instance (ns : Namespaces) (e : String × String) : Decidable (ns.Clear e) :=
  decidable_of_iff
    ((∀ f ∈ ns.toList, ':' ∉ f.1.toList) ∧
      (∀ f ∈ ns.toList, f.2 ≠ "" → ¬Text.Meets f.2.toList (e.1 ++ ":").toList) ∧
      ∀ f ∈ ns.toList, f.2 ≠ "" → ¬Text.Meets f.2.toList e.2.toList.tail)
    ⟨fun h => ⟨h.1, h.2.1, h.2.2⟩, fun h => ⟨h.plain, h.named, h.inside⟩⟩

/-- The well-known namespaces overlap neither each other nor a prefix. -/
theorem clear_of_mem_standard : ∀ e ∈ standard.toList, standard.Clear e := by decide +kernel

/-- Where the first namespace of a text is cut behind a front, only what follows is shortened. -/
theorem shorten_append {front : String} (first : ns.occurring? (front ++ rest) = some f)
    (behind : Text.cut? f.2.toList (front ++ rest).toList =
      (Text.cut? f.2.toList rest.toList).map fun parts => (front.toList ++ parts.1, parts.2)) :
    ∃ before after, Text.cut? f.2.toList rest.toList = some (before, after) ∧
      ns.shorten (front ++ rest) =
        front ++ (String.ofList before ++ f.1 ++ ":" ++ String.ofList after) := by
  obtain ⟨whole, after, cut, shortened⟩ := shorten_of_occurring first
  rw [behind] at cut
  obtain ⟨⟨before, after⟩, found, same⟩ := Option.map_eq_some_iff.1 cut
  cases same
  refine ⟨before, after, found, ?_⟩
  rw [shortened, String.ofList_append, String.ofList_toList]
  simp only [String.append_assoc]

theorem infix_append_of_cut {piece before after : List Char} (front : String)
    (cut : Text.cut? piece rest.toList = some (before, after)) :
    piece <:+: (front ++ rest).toList := by
  refine ⟨front.toList ++ before, after, ?_⟩
  rw [String.toList_append, Text.cut?_eq_some cut]
  simp only [List.append_assoc]

namespace Clear

variable (clear : ns.Clear (name, namespaceUri))

include clear

theorem not_own (registered : (name, namespaceUri) ∈ ns.toList) : namespaceUri ≠ name ++ ":" := by
  intro own
  have filled : namespaceUri ≠ "" := by
    rw [own, Ne, String.append_eq_empty_iff]
    exact fun empty => absurd empty.2 (by decide)
  refine clear.named _ registered filled ⟨namespaceUri.toList, ?_, ?_, Or.inl List.prefix_rfl⟩
  · rw [own]
    exact (List.mem_tails _ _).2 List.suffix_rfl
  · exact fun empty => filled (String.toList_eq_nil_iff.1 empty)

/-- The prefix and its colon stay when a text that is written with them is shortened. -/
theorem shorten_named (first : ns.occurring? (name ++ ":" ++ rest) = some f) :
    ∃ before after, Text.cut? f.2.toList rest.toList = some (before, after) ∧
      ns.shorten (name ++ ":" ++ rest) =
        name ++ ":" ++ (String.ofList before ++ f.1 ++ ":" ++ String.ofList after) := by
  obtain ⟨registered, filled, -⟩ := occurs_of_occurring first
  refine shorten_append first ?_
  rw [String.toList_append]
  exact Text.cut?_append_of_not_meets (clear.named f registered filled) rest.toList

/-- The namespace stays when what its prefix stands for is shortened by another namespace than that it
starts with. -/
theorem shorten_behind (first : ns.occurring? (namespaceUri ++ rest) = some f)
    (away : ¬f.2.toList <+: (namespaceUri ++ rest).toList) :
    ∃ before after, Text.cut? f.2.toList rest.toList = some (before, after) ∧
      ns.shorten (namespaceUri ++ rest) =
        namespaceUri ++ (String.ofList before ++ f.1 ++ ":" ++ String.ofList after) := by
  obtain ⟨registered, filled, -⟩ := occurs_of_occurring first
  refine shorten_append first ?_
  rw [String.toList_append] at away ⊢
  exact Text.cut?_append_of_away (clear.inside f registered filled) away

theorem exists_shorten_named (rest : String) :
    ∃ rest', ns.shorten (name ++ ":" ++ rest) = name ++ ":" ++ rest' := by
  cases first : ns.occurring? (name ++ ":" ++ rest) with
  | none => exact ⟨rest, shorten_of_none first⟩
  | some f =>
      obtain ⟨before, after, -, shortened⟩ := clear.shorten_named first
      exact ⟨_, shortened⟩

/-- Where no namespace occurs in what a prefix stands for, none occurs in the text that is written with
it. -/
theorem shorten_named_of_none (none : ns.occurring? (namespaceUri ++ rest) = none) :
    ns.shorten (name ++ ":" ++ rest) = name ++ ":" ++ rest := by
  cases first : ns.occurring? (name ++ ":" ++ rest) with
  | none => exact shorten_of_none first
  | some f =>
      obtain ⟨registered, filled, -⟩ := occurs_of_occurring first
      obtain ⟨before, after, cut, -⟩ := clear.shorten_named first
      exact absurd (infix_append_of_cut namespaceUri cut)
        (occurring?_eq_none_iff.1 none f registered filled)

/-- What a prefix stands for is shortened at its front to the short form of the text that is written with
it only by the entry of the prefix. -/
theorem eq_of_front (abbreviates : ns.Abbreviates name namespaceUri rest)
    (first : ns.occurring? (namespaceUri ++ rest) = some f)
    (front : f.2.toList <+: (namespaceUri ++ rest).toList)
    (same : ns.shorten (namespaceUri ++ rest) = ns.shorten (name ++ ":" ++ rest)) :
    f = (name, namespaceUri) ∧ ns.shorten (name ++ ":" ++ rest) = name ++ ":" ++ rest := by
  obtain ⟨registered, -, -⟩ := occurs_of_occurring first
  obtain ⟨after, split⟩ := front
  have text : namespaceUri ++ rest = f.2 ++ String.ofList after := by
    rw [← String.toList_inj, ← split, String.toList_append, String.toList_ofList]
  obtain ⟨rest', short⟩ := clear.exists_shorten_named rest
  rw [text] at first
  rw [text, shorten_of_front first, short] at same
  obtain ⟨named, rfl⟩ := name_unique (clear.plain f registered) abbreviates.plain same
  obtain rfl := entry_unique registered abbreviates.registered named
  rw [String.append_right_inj] at text
  rw [short, text]
  exact ⟨rfl, rfl⟩

/-- What a prefix stands for and the text that is written with it are shortened at the same place of the
local part, if the first of them is shortened there. -/
theorem eq_own_of_behind (first : ns.occurring? (namespaceUri ++ rest) = some f)
    (away : ¬f.2.toList <+: (namespaceUri ++ rest).toList)
    (same : ns.shorten (namespaceUri ++ rest) = ns.shorten (name ++ ":" ++ rest)) :
    namespaceUri = name ++ ":" := by
  obtain ⟨registered, filled, -⟩ := occurs_of_occurring first
  obtain ⟨before, after, cut, shortened⟩ := clear.shorten_behind first away
  have occurs := infix_append_of_cut (name ++ ":") cut
  cases first' : ns.occurring? (name ++ ":" ++ rest) with
  | none => exact absurd occurs (occurring?_eq_none_iff.1 first' f registered filled)
  | some g =>
      obtain ⟨before', after', cut', shortened'⟩ := clear.shorten_named first'
      obtain rfl := occurring?_unique first first' occurs (infix_append_of_cut namespaceUri cut')
      cases cut.symm.trans cut'
      rw [shortened, shortened'] at same
      exact String.append_left_inj _ |>.1 same

/-- What a prefix stands for has the short form of the text that is written with it only if the text is
that short form. -/
theorem same_short_iff (abbreviates : ns.Abbreviates name namespaceUri rest) :
    ns.shorten (namespaceUri ++ rest) = ns.shorten (name ++ ":" ++ rest) ↔
      ns.shorten (name ++ ":" ++ rest) = name ++ ":" ++ rest ∧
        ns.occurring? (namespaceUri ++ rest) = some (name, namespaceUri) := by
  have other : namespaceUri ≠ name ++ ":" := clear.not_own abbreviates.registered
  constructor
  · intro same
    cases first : ns.occurring? (namespaceUri ++ rest) with
    | none =>
        rw [shorten_of_none first, clear.shorten_named_of_none first] at same
        exact absurd (String.append_left_inj rest |>.1 same) other
    | some f =>
        by_cases front : f.2.toList <+: (namespaceUri ++ rest).toList
        · obtain ⟨rfl, short⟩ := clear.eq_of_front abbreviates first front same
          exact ⟨short, rfl⟩
        · exact absurd (clear.eq_own_of_behind first front same) other
  · rintro ⟨short, first⟩
    rw [shorten_of_front first, short]

end Clear

/-! ## Registries that shorten all texts alike -/

/-- What a prefix stands for is shortened to the text that is written with it, if no entry that was
registered earlier has its namespace there; and that text has the same short form if it has no namespace
in it, or the first one stands for itself. -/
theorem shorten_extend_of_first (abbreviates : ns.Abbreviates name namespaceUri rest)
    (first : ns.occurring? (namespaceUri ++ rest) = some (name, namespaceUri)) :
    ns.shorten (ns.extend (name ++ ":" ++ rest)) = name ++ ":" ++ rest ∧
      (ns.shorten (ns.extend (name ++ ":" ++ rest)) = ns.shorten (name ++ ":" ++ rest) ↔
        ∀ e ∈ ns.occurring? (name ++ ":" ++ rest), e.2 = e.1 ++ ":") := by
  have short : ns.shorten (ns.extend (name ++ ":" ++ rest)) = name ++ ":" ++ rest := by
    rw [extend_of_abbreviates abbreviates]
    exact shorten_of_front first
  refine ⟨short, ?_⟩
  rw [short, eq_comm]
  exact shorten_eq_self_iff

/-- A local part that starts with a letter does not start with two slashes. -/
theorem relative_letter (text : String) : ¬['/', '/'] <+: ("a" ++ text).toList := by
  rintro ⟨tail, slashes⟩
  simp at slashes

/-- Where all texts are shortened alike, so is a text with the first namespace in its local part, and then
the first entry stands for itself. -/
theorem own_of_alike (first : ns.toList.find? (fun e => !e.2.isEmpty) = some e) (usable : ':' ∉ e.1.toList)
    (alike : ∀ uri, ns.shorten (ns.extend uri) = ns.shorten uri) : e.2 = e.1 ++ ":" := by
  have abbreviates : ns.Abbreviates e.1 e.2 ("a" ++ e.2) :=
    ⟨List.mem_of_find?_eq_some first, usable, relative_letter e.2⟩
  have front : ns.occurring? (e.2 ++ ("a" ++ e.2)) = some e := by
    rw [← String.append_assoc]
    exact occurring?_of_first first _
  have behind : ns.occurring? (e.1 ++ ":" ++ ("a" ++ e.2)) = some e := by
    rw [← String.append_assoc]
    exact occurring?_of_first first _
  exact (shorten_extend_of_first abbreviates front).2.1 (alike _) e behind

/-- A registry that shortens all texts alike has only prefixes that stand for themselves, if its first
namespace, should there be one, can be used. -/
theorem extend_eq_self_of_alike
    (usable : ∀ e ∈ ns.toList.find? (fun e => !e.2.isEmpty), ':' ∉ e.1.toList)
    (alike : ∀ uri, ns.shorten (ns.extend uri) = ns.shorten uri) (uri : String) :
    ns.extend uri = uri := by
  refine extend_eq_self_iff.2 fun name namespaceUri rest abbreviates _ => ?_
  -- a local part that shortening leaves alone behind the prefix and behind its namespace
  have kept : ∃ part, ¬['/', '/'] <+: part.toList ∧
      ∀ front : String, ns.shorten (front ++ part) = front ++ part := by
    cases first : ns.toList.find? (fun e => !e.2.isEmpty) with
    | none =>
        refine ⟨"", by decide, fun front => shorten_of_none (occurring?_eq_none_iff.2 ?_)⟩
        intro e registered filled
        have empty : ¬(!e.2.isEmpty) = true := List.find?_eq_none.1 first e registered
        rw [Bool.not_eq_true', Bool.not_eq_false, String.isEmpty_iff] at empty
        exact absurd empty filled
    | some e =>
        refine ⟨"a" ++ e.2, relative_letter e.2, fun front => shorten_eq_self_iff.2 fun f mem => ?_⟩
        rw [← String.append_assoc, occurring?_of_first first] at mem
        cases mem
        exact own_of_alike first (usable e first) alike
  obtain ⟨part, relative, unchanged⟩ := kept
  have same := alike (name ++ ":" ++ part)
  rw [extend_of_abbreviates ⟨abbreviates.registered, abbreviates.plain, relative⟩, unchanged,
    unchanged] at same
  exact String.append_left_inj part |>.1 same

/-- When a text has the same short form before and after it is extended. A text that is not written with
a prefix always has. One that is, in any registry, if no earlier entry has its namespace in what the
prefix stands for, and no namespace is in the text itself; where nothing overlaps the prefix and its
namespace, only then. And all texts have it only if extending changes nothing at all, provided that the
first namespace can be used. -/
theorem shorten_extend (ns : Namespaces) :
    (∀ uri, ¬ns.isShortened uri = true → ns.shorten (ns.extend uri) = ns.shorten uri) ∧
      (∀ name namespaceUri rest, ns.Abbreviates name namespaceUri rest →
        ns.occurring? (namespaceUri ++ rest) = some (name, namespaceUri) →
          ns.shorten (ns.extend (name ++ ":" ++ rest)) = name ++ ":" ++ rest ∧
          (ns.shorten (ns.extend (name ++ ":" ++ rest)) = ns.shorten (name ++ ":" ++ rest) ↔
            ∀ e ∈ ns.occurring? (name ++ ":" ++ rest), e.2 = e.1 ++ ":")) ∧
      (∀ name namespaceUri rest, ns.Abbreviates name namespaceUri rest →
        ns.Clear (name, namespaceUri) →
          (ns.shorten (ns.extend (name ++ ":" ++ rest)) = ns.shorten (name ++ ":" ++ rest) ↔
            (∀ e ∈ ns.occurring? (name ++ ":" ++ rest), e.2 = e.1 ++ ":") ∧
              ns.occurring? (namespaceUri ++ rest) = some (name, namespaceUri))) ∧
      ((∀ e ∈ ns.toList.find? (fun e => !e.2.isEmpty), ':' ∉ e.1.toList) →
        ((∀ uri, ns.shorten (ns.extend uri) = ns.shorten uri) ↔ ∀ uri, ns.extend uri = uri)) := by
  refine ⟨fun uri plain => ?_, fun name namespaceUri rest abbreviates first =>
    shorten_extend_of_first abbreviates first, fun name namespaceUri rest abbreviates clear => ?_,
    fun usable => ⟨extend_eq_self_of_alike usable, fun same uri => ?_⟩⟩
  · rw [extend_of_not_shortened plain]
  · rw [extend_of_abbreviates abbreviates, ← shorten_eq_self_iff]
    exact clear.same_short_iff abbreviates
  · rw [same uri]

/-- The standard entries are clear, and a prefixed name has one short form, which is the name. Not all
texts have: the standard prefixes stand for something else. -/
theorem shorten_extend_sample :
    let ns := standard
    ns.shorten (ns.extend "foaf:Person") = "foaf:Person" ∧
      ns.shorten "foaf:Person" = "foaf:Person" ∧
      ns.shorten (ns.extend "urn:other") = ns.shorten "urn:other" ∧
      ¬∀ uri, ns.shorten (ns.extend uri) = ns.shorten uri := by
  intro ns
  obtain ⟨plain, named, clearly, all⟩ := shorten_extend ns
  have abbreviates : ns.Abbreviates "foaf" "http://xmlns.com/foaf/0.1/" "Person" :=
    ⟨by decide +kernel, by decide, by decide⟩
  have clear : ns.Clear ("foaf", "http://xmlns.com/foaf/0.1/") :=
    clear_of_mem_standard _ abbreviates.registered
  have first : ns.occurring? ("http://xmlns.com/foaf/0.1/" ++ "Person") =
      some ("foaf", "http://xmlns.com/foaf/0.1/") := by decide +kernel
  have none : ns.occurring? ("foaf" ++ ":" ++ "Person") = none := by decide +kernel
  have whole : "foaf" ++ ":" ++ "Person" = "foaf:Person" := by decide
  have own : ∀ e ∈ ns.occurring? ("foaf" ++ ":" ++ "Person"), e.2 = e.1 ++ ":" := by
    rw [none]
    exact fun _ mem => by cases mem
  have restored := (named _ _ _ abbreviates first).1
  have same := (clearly _ _ _ abbreviates clear).2 ⟨own, first⟩
  rw [whole] at restored same
  refine ⟨restored, same.symm.trans restored, plain "urn:other" (by decide +kernel), fun alike => ?_⟩
  have usable : ∀ e ∈ ns.toList.find? (fun e => !e.2.isEmpty), ':' ∉ e.1.toList := by decide +kernel
  exact absurd ((all usable).1 alike "rdf:type") (by decide +kernel)

/-- A namespace in the local part, or one that the namespace of the prefix starts with, makes the short
forms differ. -/
theorem shortened_otherwise :
    let overlapping := (empty.add "ex" "http://example.org/").add "deep" "http://example.org/deep/"
    standard.shorten (standard.extend "schema:http://schema.org/a") ≠
        standard.shorten "schema:http://schema.org/a" ∧
      overlapping.shorten (overlapping.extend "deep:x") ≠ overlapping.shorten "deep:x" := by
  decide +kernel

end Namespaces

end RdfStore
