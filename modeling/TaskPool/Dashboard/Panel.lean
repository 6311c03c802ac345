import TaskPool.Text.Width

/-!
# Panels

A `Row` is a line of the screen, cell by cell.  A `Panel` is a frame with a title and a list in it;
`Panel.rows` draws it in a given size.  `beside` puts pictures of one height side by side, and
`shares` cuts a width for that.
-/

namespace TaskPool

abbrev Row := List String

namespace Row

def text (r : Row) : String := String.join r

def ofText (width : Nat) (s : String) : Row := Width.layOut " " width (Width.glyphs s.toList)

def blank (width : Nat) : Row := List.replicate width " "

theorem length_ofText (width : Nat) (s : String) : (ofText width s).length = width :=
  Width.length_layOut _ _ _

end Row

structure Panel where
  title : String
  /-- every item is a line or more -/
  items : List (List String)

namespace Panel

/-- a panel whose items are single lines -/
def ofLines (title : String) (lines : List String) : Panel := ⟨title, lines.map fun s => [s]⟩

/-- the lines of the items that fit as a whole; the first that does not ends the list -/
def fitting : Nat → List (List String) → List String
  | _, [] => []
  | room, item :: items =>
    if item.length ≤ room then item ++ fitting (room - item.length) items else []

theorem length_fitting_le (room : Nat) (items : List (List String)) :
    (fitting room items).length ≤ room := by
  induction items generalizing room with
  | nil => simp [fitting]
  | cons item items ih =>
    unfold fitting
    split
    · have := ih (room - item.length)
      simp only [List.length_append]
      omega
    · simp

/-- the frame takes a cell on every side -/
def rows (width height : Nat) (p : Panel) : List Row :=
  let inner := width - 2
  let top := Width.layOut "─" inner (Width.glyphs p.title.toList)
  let lines := fitting (height - 2) p.items
  let filled := lines.map (Row.ofText inner)
  let empty := List.replicate (height - 2 - lines.length) (Row.blank inner)
  let sides := (filled ++ empty).map fun r => ["│"] ++ r ++ ["│"]
  let bottom := List.replicate inner "─"
  (["┌"] ++ top ++ ["┐"]) :: sides ++ [["└"] ++ bottom ++ ["┘"]]

/-- pictures side by side -/
def beside : List (List Row) → List Row
  | [] => []
  | [rs] => rs
  | rs :: more => List.zipWith (· ++ ·) rs (beside more)

/-- the widths of parts that take so many percent: a part starts in the column in which its share
starts, and the last one takes what is left -/
def shares (width : Nat) : Nat → List Nat → List Nat
  | _, [] => []
  | before, [_] => [width - width * before / 100]
  | before, percent :: more =>
    (width * (before + percent) / 100 - width * before / 100) ::
      shares width (before + percent) more

end Panel

end TaskPool
