import TaskPool.Text.Printable

/-!
# Columns of text

How many columns of a terminal a text takes: most characters take one, those of East Asian scripts
and most pictographs two, and marks that join the character before them none.

* `Glyph`      what is shown as one thing: a character and the marks that join it
* `glyphs`     the glyphs of a text
* `layOut`     the cells of a line with so many columns
-/

namespace TaskPool

namespace Width

/-- the intervals of code points that take two columns -/
def wide : Array (Nat × Nat) := #[
  (0x1100, 0x115f), (0x231a, 0x231b), (0x2329, 0x232a), (0x23e9, 0x23ec), (0x23f0, 0x23f0),
  (0x23f3, 0x23f3), (0x25fd, 0x25fe), (0x2614, 0x2615), (0x2648, 0x2653), (0x267f, 0x267f),
  (0x2693, 0x2693), (0x26a1, 0x26a1), (0x26aa, 0x26ab), (0x26bd, 0x26be), (0x26c4, 0x26c5),
  (0x26ce, 0x26ce), (0x26d4, 0x26d4), (0x26ea, 0x26ea), (0x26f2, 0x26f3), (0x26f5, 0x26f5),
  (0x26fa, 0x26fa), (0x26fd, 0x26fd), (0x2705, 0x2705), (0x270a, 0x270b), (0x2728, 0x2728),
  (0x274c, 0x274c), (0x274e, 0x274e), (0x2753, 0x2755), (0x2757, 0x2757), (0x2795, 0x2797),
  (0x27b0, 0x27b0), (0x27bf, 0x27bf), (0x2b1b, 0x2b1c), (0x2b50, 0x2b50), (0x2b55, 0x2b55),
  (0x2e80, 0x2e99), (0x2e9b, 0x2ef3), (0x2f00, 0x2fd5), (0x2ff0, 0x2ffb), (0x3000, 0x303e),
  (0x3041, 0x3096), (0x3099, 0x30ff), (0x3105, 0x312f), (0x3131, 0x318e), (0x3190, 0x31e3),
  (0x31f0, 0x321e), (0x3220, 0x3247), (0x3250, 0x4dbf), (0x4e00, 0xa48c), (0xa490, 0xa4c6),
  (0xa960, 0xa97c), (0xac00, 0xd7a3), (0xf900, 0xfaff), (0xfe10, 0xfe19), (0xfe30, 0xfe52),
  (0xfe54, 0xfe66), (0xfe68, 0xfe6b), (0xff01, 0xff60), (0xffe0, 0xffe6), (0x16fe0, 0x16fe4),
  (0x16ff0, 0x16ff1), (0x17000, 0x187f7), (0x18800, 0x18cd5), (0x18d00, 0x18d08),
  (0x1aff5, 0x1affb), (0x1affd, 0x1affe), (0x1b000, 0x1b122), (0x1b132, 0x1b132),
  (0x1b150, 0x1b152), (0x1b155, 0x1b155), (0x1b164, 0x1b167), (0x1b170, 0x1b2fb),
  (0x1f0cf, 0x1f0cf), (0x1f18e, 0x1f18e), (0x1f191, 0x1f19a), (0x1f200, 0x1f202),
  (0x1f210, 0x1f23b), (0x1f240, 0x1f248), (0x1f250, 0x1f251), (0x1f260, 0x1f265),
  (0x1f32d, 0x1f335), (0x1f337, 0x1f37c), (0x1f37e, 0x1f393), (0x1f3a0, 0x1f3ca),
  (0x1f3cf, 0x1f3d3), (0x1f3e0, 0x1f3f0), (0x1f3f4, 0x1f3f4), (0x1f3f8, 0x1f43e),
  (0x1f442, 0x1f4fc), (0x1f4ff, 0x1f53d), (0x1f54b, 0x1f54e), (0x1f550, 0x1f567),
  (0x1f57a, 0x1f57a), (0x1f595, 0x1f596), (0x1f5a4, 0x1f5a4), (0x1f5fb, 0x1f64f),
  (0x1f6cc, 0x1f6cc), (0x1f6d0, 0x1f6d2), (0x1f6d5, 0x1f6d7), (0x1f6dc, 0x1f6df),
  (0x1f6eb, 0x1f6ec), (0x1f6f4, 0x1f6fc), (0x1f7e0, 0x1f7eb), (0x1f7f0, 0x1f7f0),
  (0x1f93c, 0x1f945), (0x1f947, 0x1f9ff), (0x1fa70, 0x1fa7c), (0x1fa80, 0x1fa88),
  (0x1fa90, 0x1fabd), (0x1fabf, 0x1fac5), (0x1face, 0x1fadb), (0x1fae0, 0x1fae8),
  (0x20000, 0x2fffd), (0x30000, 0x3fffd)]

/-- characters that direct the layout and are not shown -/
def isInvisible (c : Char) : Bool :=
  let n := c.toNat
  decide (n < 0x20) || (decide (0x7f ≤ n) && decide (n < 0xa0)) ||
    (decide (0x200b ≤ n) && decide (n ≤ 0x200f)) || (decide (0x2028 ≤ n) && decide (n ≤ 0x202e)) ||
    (decide (0x2060 ≤ n) && decide (n ≤ 0x206f)) || n == 0xfeff

def columns (c : Char) : Nat :=
  if isInvisible c || Printable.isCombining c then 0
  else if decide (0x1100 ≤ c.toNat) && inIntervals wide c.toNat then 2
  else 1

structure Glyph where
  symbol : String
  columns : Nat

def glyphs (cs : List Char) : List Glyph :=
  match cs with
  | [] => []
  | c :: rest =>
    ⟨String.ofList (c :: rest.takeWhile Printable.isCombining), columns c⟩ ::
      glyphs (rest.dropWhile Printable.isCombining)
  termination_by cs.length
  decreasing_by
    have := (List.dropWhile_sublist Printable.isCombining (l := rest)).length_le
    simp only [List.length_cons]
    omega

/-- a line of `room` cells.  A glyph of two columns leaves its second cell blank, one without
columns gives its cell to the next, and the first that has no room ends the line. -/
def layOut (filler : String) : Nat → List Glyph → List String
  | room, [] => List.replicate room filler
  | room, g :: gs =>
    if room < max g.columns 1 then List.replicate room filler
    else if g.columns = 0 then
      if gs.isEmpty then g.symbol :: List.replicate (room - 1) filler else layOut filler room gs
    else
      g.symbol :: List.replicate (g.columns - 1) " " ++ layOut filler (room - g.columns) gs

/-- a line has the cells it was given -/
theorem length_layOut (filler : String) (room : Nat) (gs : List Glyph) :
    (layOut filler room gs).length = room := by
  induction gs generalizing room with
  | nil => simp [layOut]
  | cons g gs ih =>
    unfold layOut
    split
    · simp
    · split
      · split
        · simp; omega
        · exact ih room
      · simp [ih]; omega

end Width

end TaskPool
