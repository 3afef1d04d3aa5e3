import Mathlib.Logic.Function.Basic
import N00bOS.FlatMemory

/-!
# The global descriptor table

The table the kernel hands to the processor is encoded from a table of
structured entries. A `gdt_t` is packed: it is eight bytes, and the target of
`encode_gdt_entry` is the first of them. The bytes of a table are counted from
its start.

An entry whose limit cannot be encoded makes the source panic, which does not
return; the model then has no value. What the bytes mean to the processor is in
`N00bOS.Descriptors`.
-/

namespace N00bOS

/-- `structured_gdt_t`. -/
@[ext]
structure StructuredGdt where
  base : Word
  limit : Word
  access : Byte
  deriving DecidableEq

/-- The bytes of a table of `gdt_t`, from its start on. -/
abbrev GdtBytes := ℕ → Byte

namespace Gdt

/-- `sizeof(gdt_t)`. -/
def gdtSize : ℕ := 8

/-- A 32-bit value assigned to a byte. -/
def uint8 (v : Word) : Byte := v.setWidth 8

/-- `encode_gdt_entry`. It does not return when it panics. -/
def encodeGdtEntry (targetEntry : ℕ) (source : StructuredGdt) (gdt : GdtBytes) :
    Option GdtBytes :=
  let segment0 := targetEntry + 0
  let segment1 := targetEntry + 1
  let baseLow0 := targetEntry + 2
  let baseLow1 := targetEntry + 3
  let baseMiddle := targetEntry + 4
  let access := targetEntry + 5
  let highFlags := targetEntry + 6
  let baseHigh := targetEntry + 7
  if source.limit > 0xFFFF#32 ∧ source.limit &&& 0xFFF#32 ≠ 0xFFF#32 then none
  else
    let gdt := Function.update gdt highFlags 0x40#8
    let limit := source.limit
    let (limit, gdt) :=
      if limit > 0xFFFF#32 then
        (limit >>> 12, Function.update gdt highFlags 0xC0#8)
      else (limit, gdt)
    -- encode segment limit
    let gdt := Function.update gdt segment0 (uint8 (limit &&& 0xFF#32))
    let gdt := Function.update gdt segment1 (uint8 (limit >>> 8 &&& 0xFF#32))
    let gdt := Function.update gdt highFlags
      (gdt highFlags ||| uint8 (limit >>> 16 &&& 0x0F#32))
    -- encode base
    let gdt := Function.update gdt baseLow0 (uint8 (source.base &&& 0xFF#32))
    let gdt := Function.update gdt baseLow1
      (uint8 (source.base >>> 8 &&& 0xFF#32))
    let gdt := Function.update gdt baseMiddle
      (uint8 (source.base >>> 16 &&& 0xFF#32))
    let gdt := Function.update gdt baseHigh
      (uint8 (source.base >>> 24 &&& 0xFF#32))
    -- encode type
    some (Function.update gdt access source.access)

/-- The loop of `structured_gdt_to_gdt`. -/
def structuredGdtToGdtFrom : List StructuredGdt → ℕ → GdtBytes → Option GdtBytes
  | [], _, gdt => some gdt
  | source :: structuredGdt, entry, gdt => do
    let gdt ← encodeGdtEntry (gdtSize * entry) source gdt
    structuredGdtToGdtFrom structuredGdt (entry + 1) gdt

/-- `structured_gdt_to_gdt`, on the `total_entries` entries. -/
def structuredGdtToGdt (structuredGdt : List StructuredGdt) (gdt : GdtBytes) :
    Option GdtBytes :=
  structuredGdtToGdtFrom structuredGdt 0 gdt

end Gdt

end N00bOS
