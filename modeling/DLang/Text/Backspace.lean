import DLang.Text.Cluster

/-!
# Backspaces

A backspace in a line takes back the cluster before it.  What it takes back is counted in bytes, and
the count of a cluster is kept in one byte.  A cluster shorter than 256 bytes is therefore taken back
whole, and of a longer one only the remainder goes, from its end.  A remainder that ends inside a
character cannot be taken back, and the line is lost.

Main statement: a line without a backspace stays as it is (`applyBackspaces_of_notMem`).
-/

namespace DLang.Text

/-- The character that takes back the cluster before it. -/
def backspace : Char :=
  '\x08'

/-- The number of bytes of a text. -/
def byteCount : List Char → Nat
  | [] => 0
  | c :: rest => c.utf8Size + byteCount rest

/-- Takes a number of bytes off the end of a text that is given last character first.  There is no
result if that cuts a character in two. -/
def dropBytes : Nat → List Char → Option (List Char)
  | 0, text => some text
  | _ + 1, [] => none
  | count + 1, c :: rest =>
    if c.utf8Size ≤ count + 1 then dropBytes (count + 1 - c.utf8Size) rest else none

/-- A line while its backspaces take effect. -/
structure Draft where
  /-- The characters kept, the last first. -/
  text : List Char
  /-- The byte counts of the clusters kept, the last first. -/
  sizes : List UInt8
  deriving DecidableEq, Repr

namespace Draft

/-- A draft with nothing in it. -/
def empty : Draft :=
  { text := [], sizes := [] }

/-- Takes back the last cluster, if there is one. -/
def takeBack (draft : Draft) : Option Draft :=
  match draft.sizes with
  | [] => some draft
  | size :: sizes => (dropBytes size.toNat draft.text).map fun text => { text, sizes }

/-- Adds a cluster. -/
def add (draft : Draft) (cluster : List Char) : Draft :=
  { text := cluster.reverse ++ draft.text
    sizes := UInt8.ofNat (byteCount cluster) :: draft.sizes }

/-- The effect of the next cluster of a line. -/
def step (draft : Draft) (cluster : List Char) : Option Draft :=
  if cluster = [backspace] then draft.takeBack else some (draft.add cluster)

theorem foldlM_step {pieces : List (List Char)} (draft : Draft) (h : [backspace] ∉ pieces) :
    (pieces.foldlM step draft).map Draft.text = some (pieces.flatten.reverse ++ draft.text) := by
  induction pieces generalizing draft with
  | nil => rfl
  | cons piece rest ih =>
    simp only [List.mem_cons, not_or] at h
    have hstep : draft.step piece = some (draft.add piece) := by
      simp [step, Ne.symm h.1]
    simp [List.foldlM_cons, hstep, ih _ h.2, add]

end Draft

/-- A line after its backspaces have taken effect. -/
def applyBackspaces (line : List Char) : Option (List Char) :=
  ((clusters line).foldlM Draft.step .empty).map fun draft => draft.text.reverse

/-- A line without a backspace stays as it is. -/
theorem applyBackspaces_of_notMem {line : List Char} (h : backspace ∉ line) :
    applyBackspaces line = some line := by
  have hpieces : [backspace] ∉ clusters line := fun hmem =>
    h (flatten_clusters line ▸ List.mem_flatten.2 ⟨_, hmem, by simp⟩)
  obtain ⟨draft, hdraft, htext⟩ :=
    Option.map_eq_some_iff.1 (Draft.foldlM_step .empty hpieces)
  have hline : draft.text.reverse = line := by
    simp [htext, flatten_clusters, Draft.empty]
  simp [applyBackspaces, hdraft, hline]

end DLang.Text
