import DLang.Text.ClusterClass

/-!
# Clusters of characters

A text falls into clusters, each of which a reader takes for one character.  The borders are those
of the extended grapheme clusters of Unicode.  `continues` says whether a character belongs to the
cluster before it, and `clusters` splits a text where that fails.

Nothing that `continues` looks at lies outside the cluster it is asked about: a joiner between two
pictographs, a linker between two consonants and the first letter of a flag all belong to the
cluster that they continue.

Main statements: the clusters of a text join to the text (`flatten_clusters`), and none of them is
empty (`nil_notMem_clusters`).
-/

namespace DLang.Text

/-- Whether the second of two characters, by their classes, goes on spelling the Hangul syllable
that the first belongs to: leading sounds, then vowels, then trailing sounds. -/
def spellsOn : ClusterClass → ClusterClass → Bool
  | .leadingSound, .leadingSound => true
  | .leadingSound, .vowel => true
  | .leadingSound, .openSyllable => true
  | .leadingSound, .closedSyllable => true
  | .openSyllable, .vowel => true
  | .openSyllable, .trailingSound => true
  | .vowel, .vowel => true
  | .vowel, .trailingSound => true
  | .closedSyllable, .trailingSound => true
  | .trailingSound, .trailingSound => true
  | _, _ => false

/-- A mark that may stand between two consonants of a conjunct.  The non-joiner may not, since it
is there to keep them apart. -/
def isConjunctMark (c : Char) : Bool :=
  c.toNat ≠ 0x200c && (ClusterClass.of c = .extender || ClusterClass.of c = .joiner)

/-- Whether a cluster, given last character first, ends in a consonant with a linker among the
marks after it. -/
def endsLinked (cluster : List Char) : Bool :=
  (cluster.takeWhile isConjunctMark).any isLinker &&
    (cluster.dropWhile isConjunctMark).head?.any fun c => ClusterClass.of c = .consonant

/-- Whether a cluster, given last character first, ends in a pictograph and the marks on it. -/
def endsInPictograph (cluster : List Char) : Bool :=
  (cluster.dropWhile fun c => ClusterClass.of c = .extender).head?.any fun c =>
    ClusterClass.of c = .pictograph

/-- Whether a cluster, given last character first, ends in the first letter of a flag. -/
def endsInHalfFlag (cluster : List Char) : Bool :=
  (cluster.takeWhile fun c => ClusterClass.of c = .regionalIndicator).length % 2 = 1

/-- Whether a character belongs to the cluster before it, which is given last character first.
Controls stand alone, but for the two that end a line together. -/
def continues (cluster : List Char) (next : Char) : Bool :=
  match cluster with
  | [] => false
  | last :: earlier =>
    match ClusterClass.of last, ClusterClass.of next with
    | .carriageReturn, .lineFeed => true
    | .carriageReturn, _ | .lineFeed, _ | .control, _ => false
    | _, .carriageReturn | _, .lineFeed | _, .control => false
    | _, .extender | _, .joiner | _, .spacingMark => true
    | .prepended, _ => true
    | _, .consonant => endsLinked cluster
    | .joiner, .pictograph => endsInPictograph earlier
    | .regionalIndicator, .regionalIndicator => endsInHalfFlag cluster
    | before, after => spellsOn before after

/-- The clusters of a text after a cluster that has begun, which is given last character first. -/
def clustersFrom (begun : List Char) : List Char → List (List Char)
  | [] => [begun.reverse]
  | c :: rest =>
    if continues begun c then clustersFrom (c :: begun) rest
    else begun.reverse :: clustersFrom [c] rest

/-- The clusters of a text. -/
def clusters : List Char → List (List Char)
  | [] => []
  | c :: rest => clustersFrom [c] rest

theorem flatten_clustersFrom (begun text : List Char) :
    (clustersFrom begun text).flatten = begun.reverse ++ text := by
  induction text generalizing begun with
  | nil => simp [clustersFrom]
  | cons c rest ih =>
    rw [clustersFrom]
    split <;> simp [ih]

/-- The clusters of a text join to the text. -/
theorem flatten_clusters (text : List Char) : (clusters text).flatten = text := by
  cases text with
  | nil => rfl
  | cons c rest => simp [clusters, flatten_clustersFrom]

theorem nil_notMem_clustersFrom {begun : List Char} (h : begun ≠ []) (text : List Char) :
    [] ∉ clustersFrom begun text := by
  induction text generalizing begun with
  | nil => simpa [clustersFrom] using h
  | cons c rest ih =>
    rw [clustersFrom]
    split
    · exact ih (by simp)
    · simpa [h] using ih (by simp)

/-- No cluster is empty. -/
theorem nil_notMem_clusters (text : List Char) : [] ∉ clusters text := by
  cases text with
  | nil => simp [clusters]
  | cons c rest => exact nil_notMem_clustersFrom (by simp) rest

end DLang.Text
