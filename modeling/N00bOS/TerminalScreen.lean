import N00bOS.Lines
import N00bOS.Terminal

/-!
# What the console shows

The console clears the screen when line 25 would be reached, in the middle of a
`terminal_write` as well. What it shows is a `Page`: the characters since the
last time, each with the colour that was in force, in lines of 80 columns. The
row and the column are the cursor of that layout (`console_shows_text`).

A character is dealt with in two stages. What `terminal_write_char` leaves is
first written as a function of the console, without the writes into the text
buffer that could fail (`terminalWriteChar_eq`), and `Started` says that they
cannot: an initialised console is on the screen, and stays there
(`Started.step`). Then a page and a console are run side by side, and a
character keeps the one shown on the other (`Shows.step`). Both are step
lemmas, and the theorem is the induction over the calls and their characters.

How lines break is not part of this module. A page is a list of glyphs, and
where each of them stands on a screen of 80 columns is `N00bOS.Lines`, which
knows nothing of the console.
-/

namespace N00bOS

namespace Terminal

/-! ## What a character does

The loops of `terminal_initialise` and the two branches of
`terminal_write_char` as functions of the state, for a console that is on the
screen. -/

/-- The colour after `terminal_initialise`. -/
def defaultColour : Byte := vgaEntryColour vgaColourLightGrey vgaColourBlack

/-- A cell with nothing in it. -/
def blank : VgaEntry := vgaEntry 0x20#8 defaultColour

/-- Another text buffer. -/
def withVga (s : Terminal) (vga : ℕ → VgaEntry) : Terminal := { s with vga }

@[simp] theorem withVga_vga (s : Terminal) (vga : ℕ → VgaEntry) :
    (s.withVga vga).vga = vga := rfl

@[simp] theorem withVga_colour (s : Terminal) (vga : ℕ → VgaEntry) :
    (s.withVga vga).colour = s.colour := rfl

@[simp] theorem withVga_buffer (s : Terminal) (vga : ℕ → VgaEntry) :
    (s.withVga vga).buffer = s.buffer := rfl

@[simp] theorem withVga_withVga (s : Terminal) (vga vga' : ℕ → VgaEntry) :
    (s.withVga vga).withVga vga' = s.withVga vga' := rfl

/-- The state after `terminal_initialise`. -/
def cleared (s : Terminal) : Terminal where
  row := 0
  column := 0
  colour := defaultColour
  buffer := vgaMemoryStart
  vga := fun i => if i < vgaHeight * vgaWidth then blank else s.vga i

/-- **A character with its colour.** It is what a cell of the screen shows, and
is one entry of the text buffer. -/
structure Glyph where
  character : Byte
  colour : Byte
  deriving DecidableEq

/-- The entry of a glyph. -/
def Glyph.entry (g : Glyph) : VgaEntry := vgaEntry g.character g.colour

/-- What a character is on the screen: a newline ends the line, and any other
character takes a cell, whatever its code is. -/
def mark (character colour : Byte) : Option Glyph :=
  if character = newline then none else some ⟨character, colour⟩

/-- The state after a character, before the screen is cleared. -/
def put (s : Terminal) (character : Byte) : Terminal :=
  let cursor := Lines.advance vgaWidth (s.row, s.column)
    (mark character s.colour)
  { s with
    row := cursor.1
    column := cursor.2
    vga := if character = newline then s.vga else
      Function.update s.vga (s.row * vgaWidth + s.column)
        (vgaEntry character s.colour) }

/-- **The state after a character.** -/
def step (s : Terminal) (character : Byte) : Terminal :=
  if (s.put character).row < vgaHeight then s.put character
    else (s.put character).cleared

/-- **A console that was initialised**, and is on the screen. It is what every
call keeps, so that no write of the console is outside the text buffer. -/
structure Started (s : Terminal) : Prop where
  buffer : s.buffer = vgaMemoryStart
  row : s.row < vgaHeight
  column : s.column < vgaWidth

section Characters

variable {s : Terminal}

/-- A write inside the screen goes through. -/
theorem terminalWriteCharAt_eq (hbuffer : s.buffer = vgaMemoryStart)
    {row column : ℕ} (hrow : row < vgaHeight) (hcolumn : column < vgaWidth)
    (character : Byte) :
    terminalWriteCharAt character row column s = Except.ok ((), s.withVga
      (Function.update s.vga (row * vgaWidth + column)
        (vgaEntry character s.colour))) := by
  have hindex : ¬ vgaHeight * vgaWidth ≤ row * vgaWidth + column := by
    unfold vgaHeight vgaWidth at *
    omega
  rw [terminalWriteCharAt, Machine.get_bind, if_neg (not_not.mpr hbuffer),
    if_neg hindex]
  rfl

/-- **A row of blanks**, from column `x` on. The entries that are written are
those of the rest of the row, and they lie in the buffer. -/
theorem initialiseRow_eq {y : ℕ} (hy : y < vgaHeight) (left : ℕ) :
    ∀ {x : ℕ} {s : Terminal}, s.buffer = vgaMemoryStart → x + left ≤ vgaWidth →
      initialiseRow y left x s = Except.ok ((), s.withVga fun i =>
        if y * vgaWidth + x ≤ i ∧ i < y * vgaWidth + (x + left) then
          vgaEntry 0x20#8 s.colour
        else s.vga i) := by
  induction left with
  | zero =>
    intro x s _ _
    refine congrArg (fun vga => Except.ok ((), s.withVga vga))
      (funext fun i => ?_)
    rw [if_neg (by omega)]
  | succ left ih =>
    intro x s hbuffer hfit
    have hrest := fun vga => ih (x := x + 1) (s :=
      s.withVga vga) hbuffer (by omega)
    rw [initialiseRow,
      Machine.bind_ok (terminalWriteCharAt_eq hbuffer hy (by omega) _), hrest,
      withVga_withVga]
    refine congrArg (fun vga => Except.ok ((), s.withVga vga))
      (funext fun i => ?_)
    rw [withVga_colour, withVga_vga]
    rcases eq_or_ne i (y * vgaWidth + x) with rfl | hne
    · rw [if_neg (by omega), Function.update_self, if_pos (by omega)]
    · rw [Function.update_of_ne hne]
      exact if_congr (by omega) rfl rfl

/-- **Rows of blanks**, from row `y` on, each written from its first column to
its last. -/
theorem initialiseRows_eq (left : ℕ) :
    ∀ {y : ℕ} {s : Terminal}, s.buffer = vgaMemoryStart → y + left ≤ vgaHeight →
      initialiseRows left y s = Except.ok ((), s.withVga fun i =>
        if y * vgaWidth ≤ i ∧ i < (y + left) * vgaWidth then
          vgaEntry 0x20#8 s.colour
        else s.vga i) := by
  induction left with
  | zero =>
    intro y s _ _
    refine congrArg (fun vga => Except.ok ((), s.withVga vga))
      (funext fun i => ?_)
    rw [Nat.add_zero, if_neg (by omega)]
  | succ left ih =>
    intro y s hbuffer hfit
    have hrow := initialiseRow_eq (show y < vgaHeight by omega) vgaWidth (x :=
      0) hbuffer (by omega)
    have hrest := fun vga => ih (y := y + 1) (s :=
      s.withVga vga) hbuffer (by omega)
    rw [initialiseRows, Machine.bind_ok hrow, hrest, withVga_withVga]
    refine congrArg (fun vga => Except.ok ((), s.withVga vga))
      (funext fun i => ?_)
    rw [withVga_colour, withVga_vga]
    unfold vgaWidth
    by_cases hfirst : y * 80 + 0 ≤ i ∧ i < y * 80 + (0 + 80)
    · rw [if_neg (by omega), if_pos hfirst, if_pos (by omega)]
    · rw [if_neg hfirst]
      exact if_congr (by omega) rfl rfl

/-- **`terminal_initialise`** clears the screen. It sets the cursor, the colour
and the buffer first, so that any console is an initialised one after it. -/
theorem terminalInitialise_eq (s : Terminal) :
    terminalInitialise s = Except.ok ((), s.cleared) := by
  rw [terminalInitialise, Machine.modify_bind,
    initialiseRows_eq _ rfl (by omega)]
  refine congrArg (fun vga => Except.ok ((), s.cleared.withVga vga))
    (funext fun i => ?_)
  rw [Nat.zero_add, Nat.zero_mul]
  exact if_congr (by omega) rfl rfl

/-- A newline moves the cursor. -/
theorem put_newline (s : Terminal) :
    s.put newline = { s with column := 0, row := s.row + 1 } := rfl

/-- Another character is written where the cursor is, and moves it. -/
theorem put_of_ne {character : Byte} (hne : character ≠ newline) :
    s.put character = { s with
      row := if s.column + 1 < vgaWidth then s.row else s.row + 1
      column := if s.column + 1 < vgaWidth then s.column + 1 else 0
      vga := Function.update s.vga (s.row * vgaWidth + s.column)
          (vgaEntry character s.colour) } := by
  rw [put, mark, if_neg hne, if_neg hne, Lines.advance]
  split <;> rfl

/-- The end of `terminal_write_char` is the same in both branches. -/
theorem clearIfFull_eq (s : Terminal) :
    (do
      let s ← get
      if vgaHeight ≤ s.row then
        terminalInitialise : TerminalM Unit) s
      = Except.ok ((), if s.row < vgaHeight then s else s.cleared) := by
  rw [Machine.get_bind]
  by_cases hfull : vgaHeight ≤ s.row
  · rw [if_pos hfull, if_neg (Nat.not_lt.mpr hfull), terminalInitialise_eq]
  · rw [if_neg hfull, if_pos (Nat.not_le.mp hfull)]
    rfl

/-- **`terminal_write_char`**, on a console that is on the screen. Nothing it
writes is outside the buffer, and the state afterwards is that of `step`. -/
theorem terminalWriteChar_eq (hs : s.Started) (character : Byte) :
    terminalWriteChar character s = Except.ok ((), s.step character) := by
  rw [terminalWriteChar, step]
  by_cases hnewline : character = newline
  · rw [if_pos hnewline, Machine.modify_bind, clearIfFull_eq, hnewline,
      put_newline]
  · have hmove : (if vgaWidth ≤ s.column + 1 then
          { (s.put character) with column := 0, row := s.row + 1 }
        else { (s.put character) with column := s.column + 1, row := s.row })
            = s.put character := by
      rw [put_of_ne hnewline]
      by_cases hwrap : s.column + 1 < vgaWidth
      · rw [if_neg (Nat.not_le.mpr hwrap), if_pos hwrap, if_pos hwrap]
      · rw [if_pos (Nat.not_lt.mp hwrap), if_neg hwrap, if_neg hwrap]
    rw [if_neg hnewline, Machine.get_bind,
      Machine.bind_ok (terminalWriteCharAt_eq hs.buffer hs.row
        hs.column character),
      Machine.modify_bind, Machine.modify_bind, clearIfFull_eq]
    refine congrArg (fun t : Terminal =>
      Except.ok ((), if t.row < vgaHeight then t else t.cleared))
      (Eq.trans ?_ hmove)
    rw [put_of_ne hnewline]
    rfl

theorem started_cleared (s : Terminal) : s.cleared.Started :=
  ⟨rfl, by show 0 < vgaHeight; decide, by show 0 < vgaWidth; decide⟩

/-- **The console stays on the screen.** The cursor is on it before a
character, and behind it no entry is written before the screen is cleared. -/
theorem Started.step (hs : s.Started) (character : Byte) :
    (s.step character).Started := by
  rw [Terminal.step]
  split
  · next hrow =>
    refine ⟨hs.buffer, hrow, ?_⟩
    by_cases hnewline : character = newline
    · rw [hnewline, put_newline]
      exact (by decide : 0 < vgaWidth)
    · rw [put_of_ne hnewline]
      show (if s.column + 1 < vgaWidth then s.column + 1 else 0) < vgaWidth
      split
      · assumption
      · decide
  · exact started_cleared _

theorem Started.foldl_step (hs : s.Started) (string : List Byte) :
    (string.foldl Terminal.step s).Started := by
  induction string generalizing s with
  | nil => exact hs
  | cons character string ih => exact ih (hs.step character)

/-- A character changes nothing behind the screen. -/
theorem vga_step (hs : s.Started) (character : Byte) {i : ℕ}
    (hi : vgaHeight * vgaWidth ≤ i) :
    (s.step character).vga i = s.vga i := by
  have hput : (s.put character).vga i = s.vga i := by
    by_cases hnewline : character = newline
    · rw [hnewline, put_newline]
    · rw [put_of_ne hnewline]
      refine Function.update_of_ne ?_ _ _
      have hrow := hs.row
      have hcolumn := hs.column
      unfold vgaHeight vgaWidth at *
      omega
  rw [Terminal.step]
  split
  · exact hput
  · exact (if_neg (Nat.not_lt.mpr hi)).trans hput

/-- **`terminal_write`** does one character after the other. The console is on
the screen before each of them, so the whole text goes through. -/
theorem terminalWrite_eq (hs : s.Started) (string : List Byte) :
    terminalWrite string s = Except.ok ((), string.foldl step s) := by
  induction string generalizing s with
  | nil => rfl
  | cons character string ih =>
    rw [terminalWrite, Machine.bind_ok (terminalWriteChar_eq hs character),
      ih (hs.step character), List.foldl_cons]

/-- The state after a call. -/
def Call.apply (s : Terminal) : Call → Terminal
  | write string => string.foldl step s
  | setColour colour => { s with colour }

theorem Started.setColour (hs : s.Started) (colour : Byte) :
    ({ s with colour } : Terminal).Started :=
  ⟨hs.buffer, hs.row, hs.column⟩

theorem Started.apply (hs : s.Started) (call : Call) :
    (call.apply s).Started := by
  cases call with
  | write string => exact hs.foldl_step string
  | setColour colour => exact hs.setColour colour

theorem runCalls_eq (hs : s.Started) (calls : List Call) :
    runCalls calls s = Except.ok ((), calls.foldl Call.apply s) := by
  induction calls generalizing s with
  | nil => rfl
  | cons call calls ih =>
    have hrun : call.run s = Except.ok ((), call.apply s) := by
      cases call with
      | write string => exact terminalWrite_eq hs string
      | setColour colour => rfl
    rw [runCalls, Machine.bind_ok hrun, ih (hs.apply call), List.foldl_cons]

theorem vga_foldl_apply (hs : s.Started) (calls : List Call) {i : ℕ}
    (hi : vgaHeight * vgaWidth ≤ i) :
    (calls.foldl Call.apply s).vga i = s.vga i := by
  have hwrite : ∀ (string : List Byte) {s : Terminal}, s.Started →
      (string.foldl step s).vga i = s.vga i := fun string => by
    induction string with
    | nil => exact fun _ => rfl
    | cons character string ih =>
      exact fun hs => (ih (hs.step character)).trans (vga_step hs _ hi)
  induction calls generalizing s with
  | nil => rfl
  | cons call calls ih =>
    rw [List.foldl_cons, ih (hs.apply call)]
    cases call with
    | write string => exact hwrite string hs
    | setColour colour => rfl

end Characters

/-! ## The page

The text that was written, without the buffer: what a page is after each call,
and what the buffer holds when it is shown. -/

instance : NeZero vgaWidth := ⟨by decide⟩

/-- **A page**: the text since the screen was last cleared, and the colour in
force. -/
structure Page where
  text : List (Option Glyph)
  colour : Byte

namespace Page

/-- The page of a screen that was cleared. -/
def fresh : Page := ⟨[], defaultColour⟩

/-- The text in lines. -/
def lines (p : Page) : Lines Glyph vgaWidth := Lines.layout p.text

/-- **A character is written**: it has the colour in force, and the page is
cleared when line 25 would be reached. -/
def write (p : Page) (character : Byte) : Page :=
  let page : Page := { p with text := p.text ++ [mark character p.colour] }
  if page.lines.ended.length < vgaHeight then page else fresh

/-- The page after a call. -/
def apply (p : Page) : Call → Page
  | Call.write string => string.foldl write p
  | Call.setColour colour => { p with colour }

/-- What the text buffer holds for a cell. -/
def entry (p : Page) (y x : ℕ) : VgaEntry :=
  ((p.lines.cell? y x).map Glyph.entry).getD blank

end Page

/-- **The console shows a page**: the cursor is that of its lines, which are on
the screen, the colour is the one in force, and every cell has its entry. A
cell that no glyph stands in is a blank. -/
structure Shows (s : Terminal) (p : Page) : Prop where
  buffer : s.buffer = vgaMemoryStart
  cursor : (s.row, s.column) = p.lines.cursor
  row : s.row < vgaHeight
  colour : s.colour = p.colour
  vga : ∀ y x, y < vgaHeight → x < vgaWidth →
    s.vga (y * vgaWidth + x) = p.entry y x

namespace Shows

variable {s : Terminal} {p : Page}

theorem started (h : Shows s p) : s.Started where
  buffer := h.buffer
  row := h.row
  column := by
    rw [show s.column = p.lines.current.length from congrArg Prod.snd h.cursor]
    exact p.lines.current_lt

/-- A cleared screen shows nothing. -/
theorem cleared (s : Terminal) : Shows s.cleared Page.fresh where
  buffer := rfl
  cursor := rfl
  row := (started_cleared s).row
  colour := rfl
  vga := fun y x hy hx => by
    have hin : y * vgaWidth + x < vgaHeight * vgaWidth := by
      unfold vgaHeight vgaWidth at *
      omega
    rw [Page.entry, show Page.fresh.lines = Lines.empty from rfl,
      Lines.cell?_empty]
    exact if_pos hin

/-- Two cells of the screen are two entries of the buffer. -/
theorem index_inj (y y' : ℕ) {x x' : ℕ} (hx : x < vgaWidth)
    (hx' : x' < vgaWidth) :
    y * vgaWidth + x = y' * vgaWidth + x' ↔ (y, x) = (y', x') := by
  rw [Prod.mk.injEq]
  unfold vgaWidth at *
  omega

/-- The screen after a character, before it is cleared. -/
theorem vga_put (h : Shows s p) (character : Byte) {y x : ℕ}
    (hy : y < vgaHeight) (hx : x < vgaWidth) :
    (s.put character).vga (y * vgaWidth + x)
      = (((p.lines.put (mark character p.colour)).cell? y x).map
        Glyph.entry).getD blank := by
  by_cases hnewline : character = newline
  · rw [hnewline, put_newline, mark, if_pos rfl, Lines.cell?_put_none]
    exact h.vga y x hy hx
  · rw [put_of_ne hnewline, mark, if_neg hnewline,
      Lines.cell?_put_some, ← h.cursor]
    have hindex := index_inj y s.row hx h.started.column
    by_cases hat : (y, x) = (s.row, s.column)
    · rw [if_pos hat, hindex.mpr hat, ← h.colour]
      exact Function.update_self _ _ _
    · rw [if_neg hat]
      exact (Function.update_of_ne (mt hindex.mp hat) _ _).trans
        (h.vga y x hy hx)

/-- **A character keeps what is shown right.** -/
theorem step (h : Shows s p) (character : Byte) :
    Shows (s.step character) (p.write character) := by
  have hlines : ({ p with
    text := p.text ++ [mark character p.colour] } : Page).lines
      = p.lines.put (mark character p.colour) :=
        Lines.layout_append_singleton _ _
  have hcursor : ((s.put character).row, (s.put character).column)
      = (p.lines.put (mark character p.colour)).cursor := by
    rw [Lines.cursor_put, ← h.cursor, ← h.colour]
    rfl
  have hrow : (s.put character).row
      = (p.lines.put (mark character p.colour)).ended.length :=
    congrArg Prod.fst hcursor
  rw [Terminal.step, Page.write, hlines, hrow]
  split
  · next hlt =>
    refine ⟨h.buffer, hcursor.trans (by rw [hlines]), hrow ▸ hlt,
      h.colour, fun y x hy hx => ?_⟩
    rw [h.vga_put character hy hx, Page.entry, hlines]
  · exact cleared _

theorem foldl_step (h : Shows s p) (string : List Byte) :
    Shows (string.foldl Terminal.step s) (string.foldl Page.write p) := by
  induction string generalizing s p with
  | nil => exact h
  | cons character string ih => exact ih (h.step character)

theorem apply (h : Shows s p) (call : Call) :
    Shows (call.apply s) (p.apply call) := by
  cases call with
  | write string => exact h.foldl_step string
  | setColour colour => exact ⟨h.buffer, h.cursor, h.row, rfl, h.vga⟩

theorem foldl_apply (h : Shows s p) (calls : List Call) :
    Shows (calls.foldl Call.apply s) (calls.foldl Page.apply p) := by
  induction calls generalizing s p with
  | nil => exact h
  | cons call calls ih => exact ih (h.apply call)

end Shows

/-- **The console stays in bounds and shows the text.** After
`terminal_initialise` and any calls, none of which writes outside the 2000
entries of the text buffer, the cursor is on the screen, and the screen is the
page of the calls: the text since the screen was last cleared, in lines of 80
columns, on blanks. -/
theorem console_shows_text (s₀ : Terminal) (calls : List Call) :
    ∃ s, (terminalInitialise >>= fun _ => runCalls calls) s₀ = Except.ok ((), s)
      ∧ s.row < vgaHeight ∧ s.column < vgaWidth
      ∧ (∀ i, vgaHeight * vgaWidth ≤ i → s.vga i = s₀.vga i)
      ∧ Shows s (calls.foldl Page.apply Page.fresh) := by
  have hshows := (Shows.cleared s₀).foldl_apply calls
  refine ⟨_, ?_, hshows.row, hshows.started.column, fun i hi => ?_, hshows⟩
  · rw [Machine.bind_ok (terminalInitialise_eq s₀),
      runCalls_eq (started_cleared s₀)]
  · rw [vga_foldl_apply (started_cleared s₀) calls hi]
    exact if_neg (Nat.not_lt.mpr hi)

end Terminal

end N00bOS
