import Mathlib.Algebra.GroupWithZero.Nat
import Mathlib.Data.List.Basic
import Mathlib.Tactic.Common

/-!
# Text in lines

A text is a list of marks and line breaks, `some a` and `none`, and a page
shows it in lines of a fixed width. A line ends at a break, and when it has
`width` marks; after a line that is full, a break ends the empty line that
follows. `Lines` is a text laid out that way, with the current line last, and
carries the lengths of its lines: a structure whose fields say that every line
that has ended is at most `width` long and that the current one is shorter, so
that no later proof has to show it again.

Where the next mark goes is the *cursor*, a pair of numbers, and moving it does
not take the marks: `cursor_put` computes it, so that a device that only keeps
the cursor can be compared with the layout, one mark at a time
(`cell?_put_some`). For such a device the two facts are its whole step lemma:
the cursor moves as `advance` says, and one cell changes, which is the one the
cursor was on.
-/

variable {α : Type*} {width : ℕ}

/-- **A text in lines**: those that have ended, and the current one. The lines
that have ended have at most `width` marks, and the current one has fewer, so a
mark always has a column to go to. -/
structure Lines (α : Type*) (width : ℕ) where
  /-- The lines that have ended, the first one first. -/
  ended : List (List α)
  /-- The line that the next mark goes to. -/
  current : List α
  ended_le : ∀ line ∈ ended, line.length ≤ width
  current_lt : current.length < width

namespace Lines

/-- No text. -/
def empty [NeZero width] : Lines α width where
  ended := []
  current := []
  ended_le := fun _ h => absurd h List.not_mem_nil
  current_lt := Nat.pos_of_ne_zero (NeZero.ne width)

/-- The current line ends, with some marks. -/
def endWith (l : Lines α width) (line : List α) (h : line.length ≤ width) :
    Lines α width where
  ended := l.ended ++ [line]
  current := []
  ended_le := fun x hx => (List.mem_append.mp hx).elim (l.ended_le x)
    fun hx => List.mem_singleton.mp hx ▸ h
  current_lt := Nat.zero_lt_of_lt l.current_lt

/-- **One more mark, or a break.** A mark in the last column ends the line as
well, so there is never a current line that is full. -/
def put (l : Lines α width) : Option α → Lines α width
  | none => l.endWith l.current (Nat.le_of_lt l.current_lt)
  | some a =>
    if h : l.current.length + 1 < width then
      { l with
        current := l.current ++ [a]
        current_lt := by rwa [List.length_append, List.length_singleton] }
    else l.endWith (l.current ++ [a]) (by
      rw [List.length_append, List.length_singleton]
      exact l.current_lt)

/-- **The layout of a text**: its marks and breaks put on an empty page, one
after the other. -/
def layout [NeZero width] (text : List (Option α)) :
    Lines α width := text.foldl put empty

@[simp] theorem layout_nil [NeZero width] :
    layout ([] : List (Option α)) = (empty : Lines α width) :=
  rfl

theorem layout_append_singleton [NeZero width] (text : List (Option α))
    (mark : Option α) :
    (layout (text ++ [mark]) : Lines α width) = (layout text).put mark :=
  List.foldl_append

/-- The mark in line `y` and column `x`, if there is one. -/
def cell? (l : Lines α width) (y x : ℕ) :
    Option α := (l.ended ++ [l.current])[y]?.bind (·[x]?)

/-! ## The cursor

The cursor forgets the text. What it keeps is enough to say where the next mark
goes and where the cursor is after it. -/

/-- **The cursor moves**: over a mark, to the next column or, from the last
one, to the next line; and over a break to the next line. -/
def advance (width : ℕ) (cursor : ℕ × ℕ) : Option α → ℕ × ℕ
  | none => (cursor.1 + 1, 0)
  | some _ =>
    if cursor.2 + 1 < width then (cursor.1, cursor.2 + 1) else (cursor.1 + 1, 0)

/-- Where the next mark goes: the number of lines that have ended, and the
length of the current one. -/
def cursor (l : Lines α width) : ℕ × ℕ := (l.ended.length, l.current.length)

@[simp] theorem cursor_empty [NeZero width] :
    (empty : Lines α width).cursor = (0, 0) := rfl

theorem cursor_put (l : Lines α width) (mark : Option α) :
    (l.put mark).cursor = advance width l.cursor mark := by
  cases mark with
  | none => simp [cursor, put, endWith, advance]
  | some a =>
    by_cases h : l.current.length + 1 < width
    · simp [cursor, put, advance, h]
    · simp [cursor, put, endWith, advance, h]

/-- The cursor goes down only. -/
theorem le_advance (width : ℕ) (cursor : ℕ × ℕ) (mark : Option α) :
    cursor.1 ≤ (advance width cursor mark).1 := by
  cases mark with
  | none => exact Nat.le_succ _
  | some a =>
    rw [advance]
    split
    · exact Nat.le_refl _
    · exact Nat.le_succ _

/-! ## The marks

A mark that is added is the only change of the page; a break, and the end of a
full line, change none. -/

@[simp] theorem cell?_empty [NeZero width] (y x : ℕ) :
    (empty : Lines α width).cell? y x = none := by
  cases y <;> rfl

/-- A line that ends has its marks, and there is nothing after it. -/
theorem cell?_endWith (l : Lines α width) {line : List α}
    (h : line.length ≤ width) (y x : ℕ) :
    (l.endWith line h).cell? y x = (l.ended ++ [line])[y]?.bind (·[x]?) := by
  rw [cell?, endWith]
  rcases Nat.lt_or_ge y (l.ended ++ [line]).length with hlt | hge
  · rw [List.getElem?_append_left hlt]
  · rw [List.getElem?_append_right hge, List.getElem?_eq_none hge]
    cases y - (l.ended ++ [line]).length <;> rfl

/-- The mark that is added to the current line. -/
theorem getElem?_current_append (l : Lines α width) (a : α) (y x : ℕ) :
    (l.ended ++ [l.current ++ [a]])[y]?.bind (·[x]?)
      = if (y, x) = l.cursor then some a else l.cell? y x := by
  have hcursor : (y, x) = l.cursor ↔ y = l.ended.length
    ∧ x = l.current.length := Prod.ext_iff
  simp only [hcursor, cell?]
  rcases Nat.lt_trichotomy y l.ended.length with hlt | rfl | hgt
  · rw [List.getElem?_append_left hlt, List.getElem?_append_left hlt,
      if_neg (by omega)]
  · rw [List.getElem?_append_right (Nat.le_refl _),
      List.getElem?_append_right (Nat.le_refl _), Nat.sub_self]
    show (l.current ++ [a])[x]? = if _ then some a else l.current[x]?
    rcases Nat.lt_trichotomy x l.current.length with hlt | rfl | hgt
    · rw [List.getElem?_append_left hlt, if_neg (by omega)]
    · rw [List.getElem?_concat_length, if_pos ⟨rfl, rfl⟩]
    · rw [List.getElem?_eq_none (by simp; omega),
        List.getElem?_eq_none (by omega), if_neg (by omega)]
  · rw [List.getElem?_eq_none (by simp; omega),
      List.getElem?_eq_none (by simp; omega), if_neg (by omega)]

/-- A break adds no mark. -/
theorem cell?_put_none (l : Lines α width) (y x : ℕ) :
    (l.put none).cell? y x = l.cell? y x :=
  l.cell?_endWith (Nat.le_of_lt l.current_lt) y x

/-- **A mark goes where the cursor is.** Every other cell shows what it did,
also where the mark has ended its line. -/
theorem cell?_put_some (l : Lines α width) (a : α) (y x : ℕ) :
    (l.put (some a)).cell? y x = if (y, x) = l.cursor then some a
      else l.cell? y x := by
  rw [← getElem?_current_append, put]
  split
  · rfl
  · rw [cell?_endWith]

end Lines
