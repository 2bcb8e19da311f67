import RdfStore.Namespaces
import RdfStore.Proofs.OrderedMap

/-!
# Extending and shortening twice

A URI is left alone by `extend` unless it is written with a registered prefix, and then only if the
prefix stands for itself (`Namespaces.extend_eq_self_iff`); it is left alone by `shorten` unless a
namespace occurs in it (`Namespaces.shorten_eq_self_iff`). What is extended or shortened need not be
left alone again. The guard against `//` protects full URIs that have an authority, and nothing protects
the others, or a second namespace in the URI that is shortened.

* `Namespaces.idempotent_iff`: extending twice is extending once exactly if no namespace leads to a
  prefix (`Namespaces.Settled`).
* `Namespaces.extend_and_shorten_twice`: when a second pass changes nothing.
-/

namespace RdfStore.Namespaces

variable {ns : Namespaces}

/-! ## Abbreviations -/

/-- The parts of a text that is written with a registered prefix: the local part behind the colon does
not start with two slashes. -/
structure Abbreviates (ns : Namespaces) (name namespaceUri rest : String) : Prop where
  registered : (name, namespaceUri) ∈ ns.toList
  plain : ':' ∉ name.toList
  relative : ¬['/', '/'] <+: rest.toList

theorem split?_eq_some_iff {uri namespaceUri rest : String} :
    ns.split? uri = some (namespaceUri, rest) ↔
      ∃ name, ns.Abbreviates name namespaceUri rest ∧ uri = name ++ ":" ++ rest := by
  unfold split?
  constructor
  · intro found
    split at found
    · cases found
    · rename_i before after cut
      split at found
      · cases found
      · rename_i relative
        obtain ⟨value, registered, same⟩ := Option.map_eq_some_iff.1 found
        cases same
        obtain ⟨eq, absent⟩ := Text.cut?_singleton_eq_some_iff.1 cut
        refine ⟨String.ofList before, ⟨OrderedMap.mem_entries_iff.2 registered, ?_, ?_⟩, ?_⟩
        · rwa [String.toList_ofList]
        · rwa [String.toList_ofList, ← Text.isSome_stripFront?]
        · rw [← String.toList_inj, eq]
          simp
  · rintro ⟨name, abbreviates, rfl⟩
    have cut : Text.cut? [':'] (name ++ ":" ++ rest).toList = some (name.toList, rest.toList) :=
      Text.cut?_singleton_eq_some_iff.2 ⟨by simp, abbreviates.plain⟩
    have relative : ¬(Text.stripFront? ['/', '/'] rest.toList).isSome = true :=
      fun slashes => abbreviates.relative (Text.isSome_stripFront?.1 slashes)
    have registered : ns.get? name = some namespaceUri :=
      OrderedMap.mem_entries_iff.1 abbreviates.registered
    rw [cut]
    dsimp only
    rw [if_neg relative, String.ofList_toList, String.ofList_toList, registered]
    rfl

theorem extend_of_abbreviates {name namespaceUri rest : String}
    (h : ns.Abbreviates name namespaceUri rest) :
    ns.extend (name ++ ":" ++ rest) = namespaceUri ++ rest := by
  rw [extend, split?_eq_some_iff.2 ⟨name, h, rfl⟩]

/-- Only a prefix that stands for itself leaves the text that is written with it alone. -/
theorem extend_eq_self_iff {uri : String} : ns.extend uri = uri ↔
    ∀ name namespaceUri rest, ns.Abbreviates name namespaceUri rest → uri = name ++ ":" ++ rest →
      namespaceUri = name ++ ":" := by
  constructor
  · rintro same name namespaceUri rest abbreviates rfl
    rw [extend_of_abbreviates abbreviates] at same
    exact String.append_left_inj rest |>.1 same
  · intro own
    unfold extend
    split
    · rename_i namespaceUri rest found
      obtain ⟨name, abbreviates, eq⟩ := split?_eq_some_iff.1 found
      rw [own name namespaceUri rest abbreviates eq, eq]
    · rfl

/-- A URI stays as it is, or it starts with the namespace of a prefix. -/
theorem extend_cases (ns : Namespaces) (uri : String) :
    ns.extend uri = uri ∨ ∃ e ∈ ns.toList, ∃ rest, ns.extend uri = e.2 ++ rest := by
  unfold extend
  split
  · rename_i namespaceUri rest found
    obtain ⟨name, abbreviates, -⟩ := split?_eq_some_iff.1 found
    exact Or.inr ⟨_, abbreviates.registered, rest, rfl⟩
  · exact Or.inl rfl

/-- No prefix stands for the empty text. -/
def NoneEmpty (ns : Namespaces) : Prop := ∀ e ∈ ns.toList, e.2 ≠ ""

instance : DecidablePred NoneEmpty := fun ns =>
  inferInstanceAs (Decidable (∀ e ∈ ns.toList, e.2 ≠ ""))

theorem extend_ne_empty (present : ns.NoneEmpty) {uri : String} (named : uri ≠ "") :
    ns.extend uri ≠ "" := by
  rcases ns.extend_cases uri with same | ⟨e, registered, rest, same⟩
  · rw [same]
    exact named
  · rw [same, Ne, String.append_eq_empty_iff, not_and_or]
    exact Or.inl (present e registered)

/-! ## Extending twice -/

/-- Extending a second time changes nothing. -/
def Idempotent (ns : Namespaces) : Prop := ∀ uri, ns.extend (ns.extend uri) = ns.extend uri

/-- Whether a text has a colon and two slashes follow the first one. -/
def isAbsolute (text : String) : Bool :=
  match Text.cut? [':'] text.toList with
  | some (_, rest) => (Text.stripFront? ['/', '/'] rest).isSome
  | none => false

theorem extend_of_absolute {text : String} (absolute : isAbsolute text = true) :
    ns.extend text = text := by
  unfold isAbsolute at absolute
  unfold extend split?
  cases cut : Text.cut? [':'] text.toList with
  | none => rfl
  | some parts =>
      rw [cut] at absolute
      simp only [absolute, if_true]

/-- What follows an absolute text leaves it absolute: the first colon is the same. -/
theorem isAbsolute_append {text : String} (absolute : isAbsolute text = true) (rest : String) :
    isAbsolute (text ++ rest) = true := by
  unfold isAbsolute at absolute ⊢
  cases cut : Text.cut? [':'] text.toList with
  | none =>
      rw [cut] at absolute
      cases absolute
  | some parts =>
      rcases parts with ⟨before, after⟩
      rw [cut] at absolute
      obtain ⟨later, stripped⟩ := Option.isSome_iff_exists.1 absolute
      rw [String.toList_append, Text.cut?_append cut]
      refine Option.isSome_iff_exists.2 ⟨later ++ rest.toList, ?_⟩
      rw [Text.stripFront?_eq_some_iff, Text.stripFront?_eq_some_iff.1 stripped, List.append_assoc]

/-- A registry of absolute namespaces extends once. -/
theorem idempotent_of_absolute (absolute : ∀ e ∈ ns.toList, isAbsolute e.2 = true) :
    ns.Idempotent := by
  intro uri
  rcases ns.extend_cases uri with same | ⟨e, registered, rest, same⟩
  · rw [same, same]
  · rw [same]
    exact extend_of_absolute (isAbsolute_append (absolute e registered) rest)

/-- A text that starts with the namespace can be written with the prefix: its first colon stands right
behind the prefix, and no two slashes follow it. -/
def LeadsTo (namespaceUri name : String) : Prop :=
  (name.toList ++ [':'] <+: namespaceUri.toList ∧
      ¬name.toList ++ [':', '/', '/'] <+: namespaceUri.toList) ∨
    (namespaceUri.toList <+: name.toList ∧ ¬namespaceUri.toList ++ ['/', '/'] <+: name.toList)

instance (namespaceUri name : String) : Decidable (LeadsTo namespaceUri name) :=
  inferInstanceAs (Decidable (_ ∨ _))

/-- No namespace leads to a prefix, unless the prefix stands for itself. Prefixes with a colon do not
count, because no text is written with them. -/
def Settled (ns : Namespaces) : Prop :=
  ∀ e ∈ ns.toList, ':' ∉ e.1.toList → ∀ f ∈ ns.toList, ':' ∉ f.1.toList → LeadsTo e.2 f.1 →
    f.2 = f.1 ++ ":"

instance : DecidablePred Settled := fun ns =>
  inferInstanceAs (Decidable (∀ e ∈ ns.toList, _))

/-- What a prefix is extended to is written with a second prefix only if its namespace leads there. -/
theorem leadsTo_of_abbreviates {namespaceUri rest name namespaceUri' rest' : String}
    (relative : ¬['/', '/'] <+: rest.toList) (h : ns.Abbreviates name namespaceUri' rest')
    (same : namespaceUri ++ rest = name ++ ":" ++ rest') : LeadsTo namespaceUri name := by
  have chars : namespaceUri.toList ++ rest.toList = name.toList ++ ':' :: rest'.toList := by
    have lists := congrArg String.toList same
    simpa using lists
  rcases List.append_eq_append_iff.1 chars with ⟨more, split, behind⟩ | ⟨more, split, behind⟩
  · -- the namespace ends within the prefix, and the local part starts with the rest of it
    refine Or.inr ⟨⟨more, split.symm⟩, ?_⟩
    rintro ⟨tail, slashes⟩
    rw [split, List.append_assoc, List.append_cancel_left_eq] at slashes
    refine relative ⟨tail ++ ':' :: rest'.toList, ?_⟩
    rw [behind, ← slashes, List.append_assoc]
  · cases more with
    | nil =>
        rw [List.append_nil] at split
        refine Or.inr ⟨⟨[], by rw [split, List.append_nil]⟩, ?_⟩
        rintro ⟨tail, slashes⟩
        have short := congrArg List.length slashes
        simp only [split, List.length_append, List.length_cons, List.length_nil] at short
        omega
    | cons c more =>
        obtain ⟨rfl, -⟩ := List.cons.inj behind
        refine Or.inl ⟨⟨more, by rw [split, List.append_assoc]; rfl⟩, ?_⟩
        rintro ⟨tail, slashes⟩
        rw [split, List.append_assoc, List.append_cancel_left_eq] at slashes
        refine h.relative ⟨tail ++ rest.toList, ?_⟩
        rw [(List.cons.inj behind).2, ← (List.cons.inj slashes).2]
        rfl

/-- Where a namespace leads to a prefix, some text is extended from one to the other. -/
theorem exists_of_leadsTo {name namespaceUri name' namespaceUri' : String}
    (registered : (name, namespaceUri) ∈ ns.toList) (plain : ':' ∉ name.toList)
    (registered' : (name', namespaceUri') ∈ ns.toList) (plain' : ':' ∉ name'.toList)
    (leads : LeadsTo namespaceUri name') :
    ∃ rest rest', ns.Abbreviates name namespaceUri rest ∧ ns.Abbreviates name' namespaceUri' rest' ∧
      namespaceUri ++ rest = name' ++ ":" ++ rest' := by
  rcases leads with ⟨⟨after, split⟩, guard⟩ | ⟨⟨after, split⟩, guard⟩
  · refine ⟨"", String.ofList after, ⟨registered, plain, by decide⟩,
      ⟨registered', plain', fun slashes => guard ?_⟩, ?_⟩
    · rw [String.toList_ofList] at slashes
      obtain ⟨tail, slashes⟩ := slashes
      refine ⟨tail, ?_⟩
      rw [← split, ← slashes]
      simp
    · rw [← String.toList_inj]
      simp [← split]
  · refine ⟨String.ofList (after ++ [':']), "", ⟨registered, plain, fun slashes => guard ?_⟩,
      ⟨registered', plain', by decide⟩, ?_⟩
    · rw [String.toList_ofList] at slashes
      rcases List.prefix_concat_iff.1 slashes with whole | ⟨tail, inside⟩
      · have last := congrArg List.getLast? whole
        rw [List.getLast?_concat] at last
        exact absurd last (by decide)
      · exact ⟨tail, by rw [List.append_assoc, inside, split]⟩
    · rw [← String.toList_inj]
      simp [← split]

/-- Extending twice is extending once exactly where no namespace leads to a prefix. -/
theorem idempotent_iff : ns.Idempotent ↔ ns.Settled := by
  constructor
  · intro idempotent e registered plain f registered' plain' leads
    obtain ⟨rest, rest', first, second, same⟩ :=
      exists_of_leadsTo registered plain registered' plain' leads
    have fixed := idempotent (e.1 ++ ":" ++ rest)
    rw [extend_of_abbreviates first] at fixed
    exact extend_eq_self_iff.1 fixed f.1 f.2 rest' second same
  · intro settled uri
    cases found : ns.split? uri with
    | none =>
        have same : ns.extend uri = uri := by rw [extend, found]
        rw [same, same]
    | some parts =>
        rcases parts with ⟨namespaceUri, rest⟩
        obtain ⟨name, first, rfl⟩ := split?_eq_some_iff.1 found
        rw [extend_of_abbreviates first, extend_eq_self_iff]
        intro name' namespaceUri' rest' second same
        exact settled _ first.registered first.plain _ second.registered second.plain
          (leadsTo_of_abbreviates first.relative second same)

/-! ## The first namespace in a text -/

/-- The first entry whose namespace is not empty and occurs in a text. -/
def occurring? (ns : Namespaces) (uri : String) : Option (String × String) :=
  ns.toList.find? fun e => !e.2.isEmpty && Text.occursIn e.2.toList uri.toList

theorem occurs_iff {uri : String} {e : String × String} :
    (!e.2.isEmpty && Text.occursIn e.2.toList uri.toList) = true ↔
      e.2 ≠ "" ∧ e.2.toList <:+: uri.toList := by
  rw [Bool.and_eq_true, Bool.not_eq_true', ← Bool.not_eq_true, String.isEmpty_iff, Text.occursIn_iff]

theorem occurring?_eq_none_iff {uri : String} : ns.occurring? uri = none ↔
    ∀ e ∈ ns.toList, e.2 ≠ "" → ¬e.2.toList <:+: uri.toList := by
  rw [occurring?, List.find?_eq_none]
  refine forall₂_congr fun e _ => ?_
  rw [occurs_iff, not_and]

theorem occurs_of_occurring {uri : String} {e : String × String}
    (first : ns.occurring? uri = some e) :
    e ∈ ns.toList ∧ e.2 ≠ "" ∧ e.2.toList <:+: uri.toList := by
  have occurs := List.find?_some first
  exact ⟨List.mem_of_find?_eq_some first, occurs_iff.1 occurs⟩

theorem shortenBy_eq (entries : List (String × String)) (uri : String) :
    match entries.find? fun e => !e.2.isEmpty && Text.occursIn e.2.toList uri.toList with
    | some e => ∃ before after, Text.cut? e.2.toList uri.toList = some (before, after) ∧
        shortenBy entries uri = String.ofList before ++ e.1 ++ ":" ++ String.ofList after
    | none => shortenBy entries uri = uri := by
  induction entries with
  | nil => rfl
  | cons e rest ih =>
      rcases e with ⟨name, namespaceUri⟩
      rw [List.find?_cons, shortenBy]
      dsimp only
      cases empty : namespaceUri.isEmpty with
      | true => exact ih
      | false =>
          simp only [Text.occursIn, Bool.not_false, Bool.true_and, Bool.false_eq_true, if_false]
          cases cut : Text.cut? namespaceUri.toList uri.toList with
          | none => exact ih
          | some parts => exact ⟨parts.1, parts.2, cut, rfl⟩

theorem shorten_of_occurring {uri : String} {e : String × String} (h : ns.occurring? uri = some e) :
    ∃ before after, Text.cut? e.2.toList uri.toList = some (before, after) ∧
      ns.shorten uri = String.ofList before ++ e.1 ++ ":" ++ String.ofList after := by
  have shortened := shortenBy_eq ns.toList uri
  rw [occurring?] at h
  rw [h] at shortened
  exact shortened

theorem shorten_of_none {uri : String} (h : ns.occurring? uri = none) : ns.shorten uri = uri := by
  have shortened := shortenBy_eq ns.toList uri
  rw [occurring?] at h
  rw [h] at shortened
  exact shortened

/-- A text that starts with the first namespace that occurs in it is shortened at its front. -/
theorem shorten_of_front {name namespaceUri rest : String}
    (first : ns.occurring? (namespaceUri ++ rest) = some (name, namespaceUri)) :
    ns.shorten (namespaceUri ++ rest) = name ++ ":" ++ rest := by
  obtain ⟨-, filled, -⟩ := occurs_of_occurring first
  obtain ⟨before, after, cut, shortened⟩ := shorten_of_occurring first
  have present : namespaceUri.toList ≠ [] := fun empty => filled (String.toList_eq_nil_iff.1 empty)
  rw [String.toList_append, Text.cut?_self_append present] at cut
  cases cut
  rw [shortened, String.ofList_toList]
  rfl

/-- Only an entry that stands for itself leaves a text in which its namespace occurs alone. -/
theorem shorten_eq_self_iff {uri : String} :
    ns.shorten uri = uri ↔ ∀ e ∈ ns.occurring? uri, e.2 = e.1 ++ ":" := by
  cases occurring : ns.occurring? uri with
  | none => exact iff_of_true (shorten_of_none occurring) fun _ mem => by cases mem
  | some e =>
      obtain ⟨before, after, cut, shortened⟩ := shorten_of_occurring occurring
      have split : uri = String.ofList before ++ e.2 ++ String.ofList after := by
        rw [← String.toList_inj, Text.cut?_eq_some cut]
        simp
      have same : ns.shorten uri = uri ↔ e.1 ++ ":" = e.2 := by
        rw [shortened, split, String.append_left_inj, String.append_assoc, String.append_right_inj]
      rw [same]
      exact ⟨fun own _ mem => by cases mem; exact own.symm, fun own => (own e rfl).symm⟩

theorem occurring?_of_first {e : String × String}
    (first : ns.toList.find? (fun e => !e.2.isEmpty) = some e) (front : String) :
    ns.occurring? (front ++ e.2) = some e := by
  obtain ⟨filled, passed, later, split, empty⟩ := List.find?_eq_some_iff_append.1 first
  have occurs : Text.occursIn e.2.toList (front ++ e.2).toList = true := by
    rw [Text.occursIn_iff, String.toList_append]
    exact List.suffix_append _ _ |>.isInfix
  refine List.find?_eq_some_iff_append.2 ⟨?_, passed, later, split, fun f mem => ?_⟩
  · rw [filled, occurs, Bool.true_and]
  · have none : f.2.isEmpty = true := by simpa using empty f mem
    rw [none]
    rfl

/-! ## Shortening twice -/

/-- A registry whose first namespace that is not empty differs from its prefix with a colon leaves the
second of two occurrences of that namespace behind. -/
theorem exists_shorten_twice_ne {e : String × String}
    (first : ns.toList.find? (fun e => !e.2.isEmpty) = some e) (other : e.2 ≠ e.1 ++ ":") :
    ∃ uri, ns.shorten (ns.shorten uri) ≠ ns.shorten uri := by
  have once : ns.shorten (e.2 ++ e.2) = e.1 ++ ":" ++ e.2 :=
    shorten_of_front (occurring?_of_first first e.2)
  have again : ns.occurring? (e.1 ++ ":" ++ e.2) = some e := occurring?_of_first first _
  refine ⟨e.2 ++ e.2, fun same => other (shorten_eq_self_iff.1 same e ?_)⟩
  rw [once]
  exact again

/-- When a second pass changes nothing: extension, if no namespace leads to a prefix; shortening of a
text, if no namespace is left in what it was shortened to, or the first that is stands for itself. So
shortening a second time changes nothing of any text only if the first namespace stands for itself. -/
theorem extend_and_shorten_twice (ns : Namespaces) :
    ((∀ uri, ns.extend (ns.extend uri) = ns.extend uri) ↔ ns.Settled) ∧
      (∀ uri, ns.shorten (ns.shorten uri) = ns.shorten uri ↔
        ∀ e ∈ ns.occurring? (ns.shorten uri), e.2 = e.1 ++ ":") ∧
      ((∀ uri, ns.shorten (ns.shorten uri) = ns.shorten uri) →
        ∀ e ∈ ns.toList.find? (fun e => !e.2.isEmpty), e.2 = e.1 ++ ":") := by
  refine ⟨idempotent_iff, fun _ => shorten_eq_self_iff, fun same e first => ?_⟩
  by_contra other
  obtain ⟨uri, changed⟩ := exists_shorten_twice_ne first other
  exact changed (same uri)

/-- The well-known prefixes are settled, although each of their namespaces has a colon, and a prefix
that stands for itself is shortened once. -/
theorem extend_and_shorten_twice_sample :
    let own := empty.add "a" "a:"
    standard.Settled ∧ (∀ uri, standard.extend (standard.extend uri) = standard.extend uri) ∧
      standard.shorten (standard.shorten "http://schema.org/x") =
        standard.shorten "http://schema.org/x" ∧
      (∀ uri, own.shorten (own.shorten uri) = own.shorten uri) ∧
      ∀ e ∈ own.toList.find? (fun e => !e.2.isEmpty), e.2 = e.1 ++ ":" := by
  intro own
  obtain ⟨extension, shortening, -⟩ := extend_and_shorten_twice standard
  obtain ⟨-, shortening', first⟩ := extend_and_shorten_twice own
  have settled : standard.Settled := by decide +kernel
  have none : standard.occurring? (standard.shorten "http://schema.org/x") = none := by
    decide +kernel
  have every : ∀ e ∈ own.toList, e.2 = e.1 ++ ":" := by decide
  have once (uri : String) : own.shorten (own.shorten uri) = own.shorten uri :=
    (shortening' uri).2 fun e mem => every e (List.mem_of_find?_eq_some mem)
  refine ⟨settled, extension.2 settled, (shortening _).2 ?_, once, first once⟩
  rw [none]
  exact fun _ mem => by cases mem

/-- A namespace that starts with another prefix is extended by a second pass, and a namespace that
occurs twice is shortened by one. -/
theorem changed_by_second_pass :
    let ns := (empty.add "ex" "urn:ex:").add "urn" "http://urn.example/"
    let twice := "http://schema.org/http://schema.org/"
    ns.extend (ns.extend "ex:a") ≠ ns.extend "ex:a" ∧
      standard.shorten (standard.shorten twice) ≠ standard.shorten twice := by
  decide +kernel

end RdfStore.Namespaces
