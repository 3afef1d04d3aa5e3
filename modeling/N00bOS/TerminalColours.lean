import N00bOS.TerminalScreen

/-!
# The colour of what is written

A colour is set and stays in force, and `panic` writes its message in red that
way. But the screen is cleared by `terminal_initialise`, which sets the colour
as well: what comes after line 25 is light grey again (`colour_persists_iff`).

The statement is about every console that can be reached, every colour and
every text that is written afterwards, in one call or in several; that several
calls write what one would (`foldl_apply_write`) reduces it to one text. Where
a text ends does not depend on its colour (`cursor_put_eq`), so whether there
is room for it is said by the lines alone (`HasRoom`). As long as there is, the
colour of a console stays (`foldl_step_colour`); at line 25 it is the default
one, and it stays that.
-/

namespace N00bOS

namespace Terminal

/-- The colour of an entry. -/
def entryColour (e : VgaEntry) : Byte := (e >>> 8).setWidth 8

theorem entryColour_vgaEntry (character colour : Byte) :
    entryColour (vgaEntry character colour) = colour := by
  apply BitVec.eq_of_toNat_eq
  have hcharacter := character.isLt
  have hcolour := colour.isLt
  simp only [entryColour, vgaEntry, BitVec.toNat_setWidth,
    BitVec.toNat_ushiftRight, BitVec.toNat_or, BitVec.toNat_shiftLeft,
    Nat.shiftRight_or_distrib]
  rw [Nat.mod_eq_of_lt (show character.toNat < 2 ^ 16 by omega),
    Nat.mod_eq_of_lt (show colour.toNat < 2 ^ 16 by omega), Nat.shiftLeft_eq,
    Nat.mod_eq_of_lt (show colour.toNat * 2 ^ 8 < 2 ^ 16 by omega),
    Nat.shiftRight_eq_div_pow, Nat.shiftRight_eq_div_pow,
    Nat.div_eq_of_lt (show character.toNat < 2 ^ 8 by omega),
    Nat.mul_div_cancel _ (by decide), Nat.zero_or, Nat.mod_eq_of_lt hcolour]

/-- **A state that the console can be in**: it has been initialised, and any
calls were made after that. -/
def Reachable (s : Terminal) : Prop :=
  ∃ s₀ calls, (terminalInitialise >>= fun _ => runCalls calls) s₀
    = Except.ok ((), s)

theorem reachable_foldl (s₀ : Terminal) (calls : List Call) :
    Reachable (calls.foldl Call.apply s₀.cleared) := by
  refine ⟨s₀, calls, ?_⟩
  rw [Machine.bind_ok (terminalInitialise_eq s₀),
    runCalls_eq (started_cleared s₀)]

theorem Reachable.started {s : Terminal} (h : Reachable s) : s.Started := by
  obtain ⟨s₀, calls, hrun⟩ := h
  rw [Machine.bind_ok (terminalInitialise_eq s₀),
    runCalls_eq (started_cleared s₀)] at hrun
  obtain rfl := (Prod.mk.inj (Except.ok.inj hrun)).2
  exact ((Shows.cleared s₀).foldl_apply calls).started

/-- **The colour persists**: every character that is written, after a colour is
set, and up to any point of any later `terminal_write`, has that colour in the
text buffer. A character that has been cleared away by then is not looked at.
-/
def ColourPersists (s : Terminal) (colour : Byte)
    (strings : List (List Byte)) : Prop :=
  ∀ before u character v after,
    strings = before ++ (u ++ character :: v) :: after →
    character ≠ newline → ∃ s₁ s₂,
      runCalls (Call.setColour colour :: (before ++ [u]).map Call.write) s
        = Except.ok ((), s₁)
        ∧ terminalWriteCharAt character s₁.row s₁.column s₁ = Except.ok ((), s₂)
        ∧ entryColour (s₂.vga (s₁.row * vgaWidth + s₁.column)) = colour

/-- The characters of a text as marks, and breaks. -/
def marks (text : List Byte) : List (Option Byte) :=
  text.map fun character => if character = newline then none else some character

/-- Where a text ends, from the cursor of the console on. -/
def cursorAfter (s : Terminal) (text : List Byte) : ℕ × ℕ :=
  (marks text).foldl (Lines.advance vgaWidth) (s.row, s.column)

/-- **The screen has room for a text**: no character of it, a newline apart,
comes after line 25 is reached. -/
def HasRoom (s : Terminal) (text : List Byte) : Prop :=
  ∀ u character v, text = u ++ character :: v → character ≠ newline →
    (cursorAfter s u).1 < vgaHeight

section Persists

variable {s : Terminal}

theorem cursorAfter_append_singleton (s : Terminal) (text : List Byte)
    (character : Byte) :
    cursorAfter s (text ++ [character])
      = Lines.advance vgaWidth (cursorAfter s text)
        (if character = newline then none else some character) := by
  rw [cursorAfter, marks, List.map_append, List.foldl_append]
  rfl

/-- The colour of a mark does not move the cursor. -/
theorem cursor_put_eq (s : Terminal) (character : Byte) :
    ((s.put character).row, (s.put character).column)
      = Lines.advance vgaWidth (s.row, s.column)
        (if character = newline then none else some character) := by
  show Lines.advance vgaWidth (s.row, s.column) (mark character s.colour) = _
  rw [mark]
  split <;> rfl

/-- **The colour while a text is written**: it stays up to line 25, and then it
is the default one. After that it is the default one for good, since nothing in
a text sets another. -/
theorem foldl_step_colour (hs : s.Started) (text : List Byte) :
    ((cursorAfter s text).1 < vgaHeight →
        ((text.foldl step s).row, (text.foldl step s).column)
          = cursorAfter s text
          ∧ (text.foldl step s).colour = s.colour)
      ∧ (¬ (cursorAfter s text).1 < vgaHeight →
        (text.foldl step s).colour = defaultColour) := by
  induction text using List.reverseRecOn with
  | nil => exact ⟨fun _ => ⟨rfl, rfl⟩, fun h => absurd hs.row h⟩
  | append_singleton text character ih =>
    rw [List.foldl_append, List.foldl_cons, List.foldl_nil,
      cursorAfter_append_singleton]
    set t := text.foldl step s
    have hdown := Lines.le_advance vgaWidth (cursorAfter s text)
      (if character = newline then none else some character)
    by_cases hroom : (cursorAfter s text).1 < vgaHeight
    · obtain ⟨hcursor, hcolour⟩ := ih.1 hroom
      rw [← hcursor, ← cursor_put_eq, step]
      constructor
      · intro hrow
        rw [if_pos hrow]
        exact ⟨rfl, hcolour⟩
      · intro hfull
        rw [if_neg hfull]
        rfl
    · refine ⟨fun h => absurd (Nat.lt_of_le_of_lt hdown h) hroom, fun _ => ?_⟩
      rw [step]
      split
      · exact ih.2 hroom
      · rfl

/-- Several calls write what one call would. -/
theorem foldl_apply_write (s : Terminal) (strings : List (List Byte)) :
    (strings.map Call.write).foldl Call.apply s
      = strings.flatten.foldl step s := by
  induction strings generalizing s with
  | nil => rfl
  | cons string strings ih =>
    rw [List.map_cons, List.foldl_cons, ih, List.flatten_cons,
      List.foldl_append]
    rfl

/-- **The colour of a character** is the one in force before it. What has been
written by then is one text, however it was cut into calls. -/
theorem characterColour_iff (hs : s.Started) (colour : Byte)
    (before : List (List Byte)) (u : List Byte) (character : Byte) :
    (∃ s₁ s₂,
      runCalls (Call.setColour colour :: (before ++ [u]).map Call.write) s
          = Except.ok ((), s₁)
        ∧ terminalWriteCharAt character s₁.row s₁.column s₁ = Except.ok ((), s₂)
        ∧ entryColour (s₂.vga (s₁.row * vgaWidth + s₁.column)) = colour)
      ↔ ((before.flatten ++ u).foldl step { s with colour }).colour
        = colour := by
  have hset := hs.setColour colour
  have hrun : runCalls (Call.setColour colour :: (before ++ [u]).map Call.write)
    s
      = Except.ok ((), (before.flatten ++ u).foldl step { s with colour }) := by
    rw [runCalls_eq hs, List.foldl_cons, foldl_apply_write, List.flatten_append,
      List.flatten_singleton]
    rfl
  have hstarted := hset.foldl_step (before.flatten ++ u)
  set t := (before.flatten ++ u).foldl step { s with colour }
  have hwrite := terminalWriteCharAt_eq hstarted.buffer hstarted.row
    hstarted.column character
  have hentry : entryColour
    ((Function.update t.vga (t.row * vgaWidth + t.column)
      (vgaEntry character t.colour)) (t.row * vgaWidth + t.column))
        = t.colour := by
    rw [Function.update_self, entryColour_vgaEntry]
  constructor
  · rintro ⟨s₁, s₂, hrun₁, hwrite₂, hcolour⟩
    obtain rfl := (Prod.mk.inj (Except.ok.inj (hrun.symm.trans hrun₁))).2
    obtain rfl := (Prod.mk.inj (Except.ok.inj (hwrite.symm.trans hwrite₂))).2
    exact hentry.symm.trans hcolour
  · intro hcolour
    exact ⟨t, _, hrun, hwrite, hentry.trans hcolour⟩

/-- A character of the text is a character of one of the strings. -/
theorem colourPersists_iff_flatten (hs : s.Started) (colour : Byte)
    (strings : List (List Byte)) :
    ColourPersists s colour strings ↔ ∀ u character v,
    strings.flatten = u ++ character :: v →
      character ≠ newline →
      (u.foldl step { s with colour }).colour = colour := by
  constructor
  · intro h u character v htext hne
    obtain ⟨as, bs, hstrings, rfl, hrest⟩ | ⟨as, bs, c, cs, ds, hstrings,
        rfl, hrest⟩ :=
      List.flatten_eq_append_iff.mp htext
    · -- the character is the first one of a string, after some empty ones
      obtain ⟨empty, string, ds, rfl, hempty, -⟩ :=
        List.flatten_eq_cons_iff.mp hrest.symm
      have hat := (characterColour_iff hs colour (as ++ empty) [] character).mp
        (h (as ++ empty) [] character string ds
          (by rw [hstrings, List.append_assoc]; rfl) hne)
      rwa [List.flatten_append, List.flatten_eq_nil_iff.mpr hempty,
        List.append_nil, List.append_nil] at hat
    · obtain ⟨rfl, -⟩ := List.cons.inj hrest
      exact (characterColour_iff hs colour as bs character).mp
        (h as bs character cs ds hstrings hne)
  · rintro h before u character v after rfl hne
    refine (characterColour_iff hs colour before u character).mpr
      (h _ character (v ++ after.flatten) ?_ hne)
    rw [List.flatten_append, List.flatten_cons, List.append_assoc,
      List.append_assoc, List.cons_append]

/-- **The colour persists when there is room**, or when it is the default
one. -/
theorem colourPersists_iff (hs : s.Started) (colour : Byte)
    (strings : List (List Byte)) :
    ColourPersists s colour strings ↔ colour = defaultColour
      ∨ HasRoom s strings.flatten := by
  have hset := hs.setColour colour
  rw [colourPersists_iff_flatten hs]
  constructor
  · intro h
    by_cases hdefault : colour = defaultColour
    · exact Or.inl hdefault
    · refine Or.inr fun u character v htext hne => ?_
      by_contra hfull
      exact hdefault ((h u character v htext hne).symm.trans
        ((foldl_step_colour hset u).2 hfull))
  · intro h u character v htext hne
    by_cases hroom : (cursorAfter s u).1 < vgaHeight
    · exact ((foldl_step_colour hset u).1 hroom).2
    · rw [(foldl_step_colour hset u).2 hroom]
      exact (h.resolve_right fun hfits =>
        hroom (hfits u character v htext hne)).symm

end Persists

/-- **The chosen colour persists exactly** when it is the default one, or when
no character that is written afterwards comes after line 25 is reached. The
screen is cleared there by `terminal_initialise`, which sets the default colour
too; and once it is in force nothing in `terminal_write` sets another. -/
theorem colour_persists_iff {s : Terminal} (hs : Reachable s) (colour : Byte)
    (strings : List (List Byte)) :
    ColourPersists s colour strings ↔ colour = defaultColour
      ∨ HasRoom s strings.flatten :=
  colourPersists_iff hs.started colour strings

/-- **`panic`** writes its message in red. It sets the colour and writes the
characters, and what comes of that is up to `step`. -/
theorem panic_eq {s : Terminal} (hs : s.Started) (message : List Byte) :
    panic message s = Except.ok ((),
      message.foldl step { s with colour := 0x04#8 }) :=
  terminalWrite_eq (hs.setColour 0x04#8) message

/-- The console after 24 newlines. -/
def lastLine : Terminal :=
  [Call.write (List.replicate 24 newline)].foldl Call.apply
    (cleared ⟨0, 0, 0, 0, fun _ => 0⟩)

theorem lastLine_reachable : Reachable lastLine := reachable_foldl _ _

theorem lastLine_cursor :
    (lastLine.row, lastLine.column) = (24, 0) := by decide +kernel

/-- The theorem for `"A"` in red on the last line. -/
theorem colour_persists_iff_red :
    ColourPersists lastLine 0x04#8 [[0x41#8]] := by
  refine (colour_persists_iff lastLine_reachable 0x04#8 [[0x41#8]]).mpr
    (Or.inr ?_)
  rintro u character v htext -
  obtain ⟨rfl, -⟩ | ⟨w, rfl, hrest⟩ := List.cons_eq_append_iff.mp htext
  · rw [cursorAfter, lastLine_cursor]
    decide
  · exact absurd hrest (by simp)

/-- **A message of `panic` is not red** after the first line, when it starts on
the last line of the screen. -/
theorem panic_message_not_red :
    Reachable lastLine ∧ ¬ ColourPersists lastLine 0x04#8 [[newline, 0x41#8]]
      ∧ ∃ s, panic [newline, 0x41#8] lastLine = Except.ok ((), s)
        ∧ s.vga 0 = vgaEntry 0x41#8 defaultColour := by
  refine ⟨lastLine_reachable, fun h => ?_, _,
    panic_eq lastLine_reachable.started _, by decide +kernel⟩
  rcases (colourPersists_iff lastLine_reachable.started _ _).mp h with
    hdefault | hroom
  · exact absurd hdefault (by decide)
  · have hrow := hroom [newline] 0x41#8 [] rfl (by decide)
    rw [cursorAfter, lastLine_cursor] at hrow
    exact absurd hrow (by decide)

end Terminal

end N00bOS
