import BestKernel.Mem.PageTree

/-!
# Segment descriptors and identity mappings

How a descriptor of a segment is written and read, and how a page tree is made to map
physical memory to itself.  A descriptor is two words; only the first one is ever
written.

`physto_offset` divides by 512 in each of its three rounds, so that the divisor of the last
one is 0 unless it starts from the size of a large page; then the processor traps, which is
`none` here.

Readings of the source.  Shifted constants are 64-bit numbers, a shift of a 32-bit argument
takes its count modulo 32, and `base[0<<12>>60]` is `base[0]`.  `MAX16BIT` is 65535.  The
variable `y`, which `physto_offset` uses for a page type before the loop declares it, is a
parameter; the parenthesis that is left open around the shifted pointer ends with the
statement.
-/

namespace BestKernel
namespace Mem

open Machine

/-- `tosmallpage`. -/
def tosmallpage {w : Nat} (x : BitVec w) : BitVec w :=
  if x % 4096 ≠ 0 then x / 4096 + 1 else x / 4096

/-- `MAX16BIT`. -/
abbrev MAX16BIT : Word := 65535

/-- The base of a descriptor, spread over its first word. -/
def segmentBase (ins : Word) : Word :=
  ((ins <<< 48) >>> 32) ||| (((ins >>> 16) <<< 56) >>> 32) ||| ((ins >>> 56) <<< 56)

/-- `gdt_insert`, for the word at `ins`. -/
def gdtInsert (m : WordMemory) (type : Half) (ins target : Word) : WordMemory :=
  let sysseg_template :=
    (shl type 40).setWidth 64 ||| (1#64 <<< 47) ||| (1#64 <<< 53) ||| (1#64 <<< 55)
  Function.update m target (sysseg_template ||| segmentBase (m ins) ||| tosmallpage MAX16BIT)

/-- `64bit_sysseg_types::LDT`. -/
abbrev LDT_TYPE : Half := 2

/-- `extract_segment_statistics`: the start and the length. -/
def extractSegmentStatistics (m : WordMemory) (base : Word) : Word × Word :=
  let first := m base
  let second := m (wordAt base 1)
  (((first <<< 14) >>> 32) ||| (first >>> 56) ||| ((second <<< 32) >>> 32),
    first ||| ((first <<< 48) >>> 48) ||| (second >>> 32))

/-- The second loop of `physto_offset`, with its `second` and `g`, up to a division by 0. -/
def phystoOffsetLoop : Nat → Word → Half → Word → Option Word
  | 0, _, _, second => some second
  | left + 1, phys, g, second =>
      let second := second |||
        g.setWidth 64 * (shl phys (64 - g * 9 + 12).toNat >>> 55)
      if g = 0 then none
      else phystoOffsetLoop left (phys % g.setWidth 64) (g / 512) second

/-- `physto_offset`. -/
def phystoOffset (y : Nat) (pagetree phys : Word) : Option Word :=
  let offset : Word := 512 * 8
  let offset := offset + 512 * offset
  let offset := offset + 512 * offset
  let offset := offset + 512 * offset
  (phystoOffsetLoop Pag.SMALLPAGE phys (multiplierOf y) 0).map fun second =>
    pagetree + offset + second

/-- The entry that `map_identity` writes, without an address. -/
def identityTemplate (cache user : Half) : Word :=
  memreqTemplate Pag.SMALLPAGE .MAP cache 1 ||| (user <<< 2).setWidth 64

/-- `map_identity`: every entry is the same template. -/
def mapIdentity (y : Nat) (m : WordMemory) (pagetree target : Word)
    (pages_number cache user : Half) : Option WordMemory :=
  (phystoOffset y pagetree target).map fun entry =>
    storeWords m entry (fun _ => identityTemplate cache user) pages_number.toNat

end Mem
end BestKernel
