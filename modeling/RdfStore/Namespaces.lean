import RdfStore.OrderedMap
import RdfStore.Text.Cut

/-!
# Namespaces

An ordered table of prefixes. `extend` replaces a registered prefix in front of the first colon
by its namespace, unless `//` follows the colon; `shorten` replaces the first occurrence of the
first registered namespace that occurs at all by its prefix and a colon. The order of
registration decides between overlapping namespaces.
-/

namespace RdfStore

/-- Prefixes and their namespaces, in order of registration. -/
structure Namespaces where
  table : OrderedMap String String

namespace Namespaces

/-- Two tables with the same entries are the same. -/
@[ext] theorem ext {ns ms : Namespaces} (h : ns.table.entries = ms.table.entries) : ns = ms := by
  cases ns; cases ms; simp only [mk.injEq]; exact OrderedMap.ext h

/-- No prefixes. -/
def empty : Namespaces := ⟨.empty⟩

instance : Inhabited Namespaces := ⟨empty⟩

/-- Register a prefix; one that is already known keeps its place and takes the new namespace. -/
def add (ns : Namespaces) (name namespaceUri : String) : Namespaces :=
  ⟨ns.table.insert name namespaceUri⟩

/-- Register a list of prefixes, first to last. -/
def addAll (ns : Namespaces) (entries : List (String × String)) : Namespaces :=
  entries.foldl (fun ns e => ns.add e.1 e.2) ns

/-- The well-known prefixes, in their order of registration. -/
def wellKnown : List (String × String) :=
  [("rdf", "http://www.w3.org/1999/02/22-rdf-syntax-ns#"),
    ("rdfs", "http://www.w3.org/2000/01/rdf-schema#"),
    ("xsd", "http://www.w3.org/2001/XMLSchema#"),
    ("owl", "http://www.w3.org/2002/07/owl#"),
    ("foaf", "http://xmlns.com/foaf/0.1/"),
    ("dc", "http://purl.org/dc/elements/1.1/"),
    ("dcterms", "http://purl.org/dc/terms/"),
    ("skos", "http://www.w3.org/2004/02/skos/core#"),
    ("schema", "http://schema.org/")]

/-- The table of the well-known prefixes. -/
def standard : Namespaces := empty.addAll wellKnown

/-- The namespace of a prefix. -/
def get? (ns : Namespaces) (name : String) : Option String := ns.table.get? name

/-- The prefixes and namespaces in order of registration. -/
def toList (ns : Namespaces) : List (String × String) := ns.table.entries

/-- The number of prefixes. -/
def size (ns : Namespaces) : Nat := ns.table.size

/-- Whether there is no prefix. -/
def isEmpty (ns : Namespaces) : Bool := ns.table.isEmpty

/-- The namespace and the local part of a text that starts with a registered prefix and a colon,
unless `//` follows. -/
def split? (ns : Namespaces) (uri : String) : Option (String × String) :=
  match Text.cut? [':'] uri.toList with
  | none => none
  | some (name, rest) =>
    if (Text.stripFront? ['/', '/'] rest).isSome then none
    else (ns.get? (String.ofList name)).map fun namespaceUri => (namespaceUri, String.ofList rest)

/-- The full form of a URI; a text without a registered prefix is left alone. -/
def extend (ns : Namespaces) (uri : String) : String :=
  match ns.split? uri with
  | some (namespaceUri, rest) => namespaceUri ++ rest
  | none => uri

/-- Whether a URI is written with a registered prefix. -/
def isShortened (ns : Namespaces) (uri : String) : Bool := (ns.split? uri).isSome

/-- The short form by the first entry whose namespace is not empty and occurs in the text. -/
def shortenBy : List (String × String) → String → String
  | [], uri => uri
  | (name, namespaceUri) :: rest, uri =>
    if namespaceUri.isEmpty then shortenBy rest uri
    else
      match Text.cut? namespaceUri.toList uri.toList with
      | some (before, after) => String.ofList before ++ name ++ ":" ++ String.ofList after
      | none => shortenBy rest uri

/-- The short form of a URI; a text in which no namespace occurs is left alone. -/
def shorten (ns : Namespaces) (uri : String) : String := shortenBy ns.toList uri

end Namespaces

end RdfStore
