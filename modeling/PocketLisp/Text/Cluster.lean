/-
PocketLisp/Text/Cluster.lean

Extended grapheme clusters: the pieces of a text that a reader takes for one
character.  All sequence operations on texts count and cut in clusters.

The text is cut from left to right.  What a rule of the standard asks about
the characters before a position is kept in a `Context`; `breaksBefore` says
whether the text may be cut in front of the next character.  Clusters are not
empty and their concatenation is the text (`split_ne_nil`, `flatten_split`).
-/
import PocketLisp.Text.Cluster.Property

namespace PocketLisp.Text.Cluster

/-! ### What stands before a position -/

/-- How much of a conjunct of two consonants stands before a position. -/
inductive Conjunct where
  | none
  /-- a consonant, and marks that do not end the conjunct -/
  | opened
  /-- the same, with a linker among the marks -/
  | linked
  deriving DecidableEq, Repr

/-- What the rules ask about the characters before a position. -/
structure Context where
  /-- the property of the last character -/
  last : Property
  /-- the text so far ends in an odd number of regional indicators -/
  oddIndicators : Bool
  /-- the text so far ends in a pictograph and marks that extend it -/
  pictograph : Bool
  /-- the text so far ends in a pictograph, marks that extend it and a joiner -/
  joined : Bool
  conjunct : Conjunct
  deriving DecidableEq, Repr

/-- Whether a character extends the one before it. -/
def Property.isExtending : Property → Bool
  | .extend | .linker | .nonJoiner => true
  | _ => false

/-- Whether a character is a cluster of its own whatever stands next to it. -/
def Property.isControl : Property → Bool
  | .control | .carriageReturn | .lineFeed => true
  | _ => false

/-- The conjunct before the next position. -/
def Conjunct.next (k : Conjunct) : Property → Conjunct
  | .consonant => .opened
  | .linker => if k = .none then .none else .linked
  | .extend | .joiner => k
  | _ => .none

/-- The context after a first character. -/
def Context.start (p : Property) : Context :=
  ⟨p, p = .regionalIndicator, p = .pictograph, false, Conjunct.none.next p⟩

/-- The context after one more character. -/
def Context.next (s : Context) (p : Property) : Context :=
  ⟨p, p = .regionalIndicator && !s.oddIndicators,
    p = .pictograph || (s.pictograph && p.isExtending),
    s.pictograph && p = .joiner, s.conjunct.next p⟩

/-! ### Where a text is cut -/

/-- Whether two Hangul letters or syllables belong to one syllable. -/
def hangulJoins : Property → Property → Bool
  | .hangulLead, .hangulLead | .hangulLead, .hangulVowel
  | .hangulLead, .hangulOpen | .hangulLead, .hangulClosed => true
  | .hangulOpen, .hangulVowel | .hangulOpen, .hangulTail
  | .hangulVowel, .hangulVowel | .hangulVowel, .hangulTail => true
  | .hangulClosed, .hangulTail | .hangulTail, .hangulTail => true
  | _, _ => false

/-- Whether the text is cut in front of a character. -/
def breaksBefore (s : Context) (p : Property) : Bool :=
  if s.last = .carriageReturn && p = .lineFeed then false
  else if s.last.isControl || p.isControl then true
  else if hangulJoins s.last p then false
  else if p.isExtending || p = .joiner || p = .spacingMark then false
  else if s.last = .prepend then false
  else if s.conjunct = .linked && p = .consonant then false
  else if s.joined && p = .pictograph then false
  else !(s.oddIndicators && p = .regionalIndicator)

/-- The clusters of a text after the characters of `cluster`, which is given from its end. -/
def splitFrom (s : Context) (cluster : List Char) : List Char → List (List Char)
  | [] => [cluster.reverse]
  | c :: rest =>
    let p := Property.of c
    if breaksBefore s p then cluster.reverse :: splitFrom (s.next p) [c] rest
    else splitFrom (s.next p) (c :: cluster) rest

/-- The clusters of a text. -/
def split : List Char → List (List Char)
  | [] => []
  | c :: rest => splitFrom (.start (Property.of c)) [c] rest

/-! ### Nothing is lost -/

theorem flatten_splitFrom (s : Context) (cluster cs : List Char) :
    (splitFrom s cluster cs).flatten = cluster.reverse ++ cs := by
  induction cs generalizing s cluster with
  | nil => simp [splitFrom]
  | cons c rest ih => by_cases h : breaksBefore s (Property.of c) <;> simp [splitFrom, h, ih]

@[simp] theorem flatten_split (cs : List Char) : (split cs).flatten = cs := by
  cases cs with
  | nil => rfl
  | cons c rest => simp [split, flatten_splitFrom]

theorem splitFrom_ne_nil {s : Context} {cluster cs g : List Char} (hc : cluster ≠ [])
    (h : g ∈ splitFrom s cluster cs) : g ≠ [] := by
  induction cs generalizing s cluster with
  | nil => simp_all [splitFrom]
  | cons c rest ih =>
    by_cases hb : breaksBefore s (Property.of c)
    · simp only [splitFrom, hb, if_true, List.mem_cons] at h
      rcases h with rfl | h
      · simpa using hc
      · exact ih (by simp) h
    · simp only [splitFrom, hb] at h
      exact ih (by simp) h

theorem split_ne_nil {cs g : List Char} (h : g ∈ split cs) : g ≠ [] := by
  cases cs with
  | nil => simp [split] at h
  | cons c rest => exact splitFrom_ne_nil (by simp) h

end PocketLisp.Text.Cluster
