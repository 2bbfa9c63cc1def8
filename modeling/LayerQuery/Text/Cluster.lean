import LayerQuery.Text.ClusterClass
/-!
# Clusters

A text is read as a row of clusters, the characters that a reader takes
for one (the extended grapheme clusters of Unicode). `joins` says whether
a character goes on with the cluster before it; no rule looks further
back than to the beginning of that cluster, so the clusters of a text are
found in one pass from its beginning. They are the text again when put
together (`flatten_clusters`).
-/

namespace LayerQuery

namespace Text

/-! ## Where a cluster goes on

A cluster under way is held with its last character first. -/

/-- The cluster ends with a flag of which one half is there. -/
def endsHalfFlag (cluster : List Char) : Bool :=
  (cluster.takeWhile fun c => ClusterClass.ofChar c = .regional).length % 2 == 1

/-- The cluster ends with a pictograph and marks on it. -/
def endsPictograph (cluster : List Char) : Bool :=
  match cluster.dropWhile fun c => ClusterClass.ofChar c = .extend with
  | c :: _ => isPictograph c
  | [] => false

/-- The cluster ends with a consonant and marks on it, one of which links it to what comes. -/
def endsLinked (cluster : List Char) : Bool :=
  (cluster.takeWhile isConjunctMark).any isLinker &&
    match cluster.dropWhile isConjunctMark with
    | c :: _ => isConsonant c
    | [] => false

/-- Whether a cluster goes on with a character. -/
def joins (cluster : List Char) (c : Char) : Bool :=
  match cluster with
  | [] => true
  | last :: before =>
    match ClusterClass.ofChar last, ClusterClass.ofChar c with
    -- Controls stand alone, but a line break is one cluster.
    | .carriageReturn, .lineFeed => true
    | .carriageReturn, _ | .lineFeed, _ | .control, _ => false
    | _, .carriageReturn | _, .lineFeed | _, .control => false
    -- Marks belong to what they mark.
    | _, .extend | _, .joiner | _, .spacingMark => true
    | .prepend, _ => true
    -- Hangul is written in syllables.
    | .leading, .leading | .leading, .vowel => true
    | .leading, .openSyllable | .leading, .closedSyllable => true
    | .openSyllable, .vowel | .openSyllable, .trailing => true
    | .vowel, .vowel | .vowel, .trailing => true
    | .closedSyllable, .trailing | .trailing, .trailing => true
    -- Halves of flags go in pairs, pictographs are joined, consonants are linked.
    | .regional, .regional => endsHalfFlag cluster
    | .joiner, _ =>
      (isPictograph c && endsPictograph before) || (isConsonant c && endsLinked cluster)
    | _, _ => isConsonant c && endsLinked cluster

/-! ## The clusters of a text -/

/-- The clusters of a text that goes on after the cluster under way. -/
def clustersFrom : List Char → List Char → List (List Char)
  | cluster, [] => if cluster.isEmpty then [] else [cluster.reverse]
  | cluster, c :: cs =>
    if joins cluster c then clustersFrom (c :: cluster) cs
    else cluster.reverse :: clustersFrom [c] cs

/-- The clusters of a text. -/
def clusters (cs : List Char) : List (List Char) :=
  clustersFrom [] cs

theorem flatten_clustersFrom (cluster cs : List Char) :
    (clustersFrom cluster cs).flatten = cluster.reverse ++ cs := by
  induction cs generalizing cluster with
  | nil => cases cluster <;> simp [clustersFrom]
  | cons c cs ih =>
    rw [clustersFrom]
    split
    · rw [ih]; simp
    · rw [List.flatten_cons, ih]; simp

/-- Clusters are what a text consists of, in its order. -/
theorem flatten_clusters (cs : List Char) : (clusters cs).flatten = cs := by
  simp [clusters, flatten_clustersFrom]

end Text

end LayerQuery
