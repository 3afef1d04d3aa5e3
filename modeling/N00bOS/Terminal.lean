import Mathlib.Logic.Function.Basic
import N00bOS.Kernel

/-!
# The console

The console writes entries of a character and a colour to the text buffer of
the VGA device, which has one for each cell of the screen. The text buffer is
numbered from its start. The row and the column are a `size_t`; both are reset
before they get large.

The static variables of the source and the text buffer are one state. Behind
the last line the console starts again at the first, and it does so by
initialising itself, with everything that this sets (`terminalInitialise`).
-/

namespace N00bOS

/-- An entry of the text buffer: a character, and its colour. -/
abbrev VgaEntry := BitVec 16

/-- `VGA_COLOUR_BLACK`. -/
def vgaColourBlack : Byte := 0

/-- `VGA_COLOUR_LIGHT_GREY`. -/
def vgaColourLightGrey : Byte := 7

/-- `vga_entry_colour`. -/
def vgaEntryColour (fg bg : Byte) : Byte := fg ||| bg <<< 4

/-- `vga_entry`. -/
def vgaEntry (character colour : Byte) : VgaEntry :=
  character.setWidth 16 ||| colour.setWidth 16 <<< 8

/-- `VGA_WIDTH`. -/
def vgaWidth : ℕ := 80

/-- `VGA_HEIGHT`. -/
def vgaHeight : ℕ := 25

/-- `VGA_MEMORY_START`. -/
def vgaMemoryStart : Word := 0xB8000#32

/-- **The state of the console**: its static variables, and the text buffer of
the device. -/
structure Terminal where
  /-- `terminal_row`. -/
  row : ℕ
  /-- `terminal_column`. -/
  column : ℕ
  /-- `terminal_colour`. -/
  colour : Byte
  /-- `terminal_buffer`, which is null at first. -/
  buffer : Word
  /-- The entries from `VGA_MEMORY_START` on. -/
  vga : ℕ → VgaEntry

/-- **A program of the console.** It can only fail by writing outside the text
buffer, or before there is one. -/
abbrev TerminalM := Machine Fault Terminal

namespace Terminal

/-- `'\n'`. -/
def newline : Byte := 0x0A#8

/-- `terminal_write_char_at`. -/
def terminalWriteCharAt (character : Byte) (row column : ℕ) :
    TerminalM Unit := do
  let s ← get
  let index := row * vgaWidth + column
  if s.buffer ≠ vgaMemoryStart then
    Machine.fault Fault.nullDereference
  else if vgaHeight * vgaWidth ≤ index then
    Machine.fault Fault.outOfBounds
  else
    modify fun s =>
      { s with
        vga := Function.update s.vga index (vgaEntry character s.colour) }

/-- The inner loop of `terminal_initialise`, with `left` columns to go. -/
def initialiseRow (y : ℕ) : ℕ → ℕ → TerminalM Unit
  | 0, _ => return
  | left + 1, x => do
    terminalWriteCharAt 0x20#8 y x
    initialiseRow y left (x + 1)

/-- The outer loop, with `left` rows to go. -/
def initialiseRows : ℕ → ℕ → TerminalM Unit
  | 0, _ => return
  | left + 1, y => do
    initialiseRow y vgaWidth 0
    initialiseRows left (y + 1)

/-- `terminal_initialise`. -/
def terminalInitialise : TerminalM Unit := do
  modify fun s => { s with
    row := 0
    column := 0
    colour := vgaEntryColour vgaColourLightGrey vgaColourBlack
    buffer := vgaMemoryStart }
  initialiseRows vgaHeight 0

/-- `terminal_write_char`. -/
def terminalWriteChar (character : Byte) : TerminalM Unit := do
  if character = newline then
    modify fun s => { s with column := 0, row := s.row + 1 }
    let s ← get
    if vgaHeight ≤ s.row then
      terminalInitialise -- no more space - start again
  else
    let s ← get
    terminalWriteCharAt character s.row s.column
    modify fun s => { s with column := s.column + 1 }
    modify fun s => if vgaWidth ≤ s.column then { s with
      column := 0, row := s.row + 1 } else s
    let s ← get
    if vgaHeight ≤ s.row then
      terminalInitialise -- no more space - start again

/-- `terminal_write`, on the characters before the terminator. -/
def terminalWrite : List Byte → TerminalM Unit
  | [] => return
  | character :: string => do
    terminalWriteChar character
    terminalWrite string

/-- `terminal_set_colour`. -/
def terminalSetColour (colour : Byte) : TerminalM Unit :=
  modify fun s => { s with colour }

/-- `panic`, up to the loop that does not end. -/
def panic (message : List Byte) : TerminalM Unit := do
  terminalSetColour 0x04#8 -- red
  terminalWrite message

/-! ## Calls -/

/-- A call of the console, after `terminal_initialise`. -/
inductive Call where
  | write (string : List Byte)
  | setColour (colour : Byte)

/-- What a call does. -/
def Call.run : Call → TerminalM Unit
  | write string => terminalWrite string
  | setColour colour => terminalSetColour colour

/-- One call after the other. -/
def runCalls : List Call → TerminalM Unit
  | [] => return
  | call :: calls => do
    call.run
    runCalls calls

end Terminal

end N00bOS
