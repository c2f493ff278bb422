import TRS.Lib.Loop
import TRS.Lib.Mem
import TRS.Memory.BootInfo

/-!
# Physical memory manager

`kernel/memory_paging.c`. The bitmap lives in physical memory at the address `bitmap`; every access
to `bitmap[i]` is checked against `bitmap_bytes`, and an access outside the storage stops the model
with `Stop.wild`. `kpanic` stops it with `Stop.panic`. The functions keep the order, the tests and
the 64-bit arithmetic of the source, in particular `bitmap_test`, which returns the shifted byte
without masking it to one bit.

`TRS.Memory.Spec` says what the functions do to the bits, and `TRS.Memory.Init` what `pmm_init`
builds.
-/

namespace TRS.Memory
open TRS.Lib

/-- Why the kernel stopped. -/
inductive Stop where
  /-- `kpanic(msg, ..)`. -/
  | panic (msg : String)
  /-- An access to `bitmap[i]` outside the storage of the bitmap. -/
  | wild (i : Nat)
  deriving DecidableEq, Repr

/-- The static variables of `memory_paging.c`, and the memory the bitmap lives in. -/
structure Pmm where
  mem : Mem
  bitmap : Nat
  bitmapBytes : Nat
  totalPages : Nat
  usedPages : Nat
  usablePages : Nat
  lastAlloc : Nat

namespace Pmm

/-- Load `bitmap[i]`. -/
def load (s : Pmm) (i : Nat) : Except Stop Byte :=
  if i < s.bitmapBytes then .ok (s.mem (s.bitmap + i)) else .error (.wild i)

/-- Store to `bitmap[i]`. -/
def store (s : Pmm) (i : Nat) (v : Byte) : Except Stop Pmm :=
  if i < s.bitmapBytes then .ok { s with mem := s.mem.write (s.bitmap + i) v }
  else .error (.wild i)

/-- `bitmap[p >> 3] |= (unsigned char)(1u << (p & 7))`. -/
def bitmapSet (s : Pmm) (p : Nat) : Except Stop Pmm := do
  let b ← s.load (p >>> 3)
  s.store (p >>> 3) (b ||| 1#8 <<< (p &&& 7))

/-- `bitmap[p >> 3] &= (unsigned char)~(1u << (p & 7))`. -/
def bitmapClear (s : Pmm) (p : Nat) : Except Stop Pmm := do
  let b ← s.load (p >>> 3)
  s.store (p >>> 3) (b &&& ~~~(1#8 <<< (p &&& 7)))

/-- `bitmap[p >> 3] >> (p & 7)`. -/
def bitmapTest (s : Pmm) (p : Nat) : Except Stop Byte := do
  let b ← s.load (p >>> 3)
  return b >>> (p &&& 7)

/-- One round of the loop in `reserv_range`. -/
def reservPage (p : Nat) (s : Pmm) : Except Stop Pmm := do
  let t ← s.bitmapTest p
  if t = 0#8 then
    let s ← s.bitmapSet p
    return { s with usedPages := u64 (s.usedPages + 1) }
  else
    return s

/-- `reserv_range(start, size)`. -/
def reservRange (s : Pmm) (start size : Nat) : Except Stop Pmm :=
  let first := start / pageSize
  let last := alignUp (u64 (start + size)) pageSize / pageSize
  forRangeM first (min last s.totalPages) reservPage s

/-- The scan of `pmm_alloc_pages` over the `n` pages from `p` on. -/
def scan (pages : Nat) : (n p consecutivePages startPage : Nat) → Pmm → Except Stop (Nat × Pmm)
  | 0, _, _, _, s => .ok (0, s)
  | n + 1, p, consecutivePages, startPage, s => do
    let t ← s.bitmapTest p
    if t = 0#8 then
      let startPage := if consecutivePages = 0 then p else startPage
      let consecutivePages := consecutivePages + 1
      if consecutivePages = pages then
        let s ← forRangeM startPage (p + 1) (fun i s => s.bitmapSet i) s
        return (startPage * pageSize,
          { s with usedPages := u64 (s.usedPages + pages), lastAlloc := p + 1 })
      else
        scan pages n (p + 1) consecutivePages startPage s
    else
      scan pages n (p + 1) 0 startPage s

/-- `pmm_alloc_pages(pages)`: the address of the block, or 0 for `NULL`. -/
def pmmAllocPages (s : Pmm) (pages : Nat) : Except Stop (Nat × Pmm) :=
  if s.bitmap = 0 ∨ pages = 0 then .ok (0, s) else scan pages s.totalPages 0 0 0 s

/-- `pmm_free_page(page)`. -/
def pmmFreePage (s : Pmm) (page : Nat) : Except Stop Pmm :=
  if s.bitmap = 0 then .ok s
  else
    let p := page / pageSize
    if p ≥ s.totalPages then .ok s
    else do
      let t ← s.bitmapTest p
      if t = 0#8 then return s
      else
        let s ← s.bitmapClear p
        return { s with
          usedPages := u64 (s.usedPages + (2 ^ 64 - 1))
          lastAlloc := if p < s.lastAlloc then p else s.lastAlloc }

/-- One round of the loop that frees the pages of a ConventionalMemory descriptor. -/
def clearDesc (bi : BootInfo) (i : Nat) (s : Pmm) : Except Stop Pmm :=
  let d := bi.desc i
  if d.type ≠ conventionalMemory then .ok s
  else do
    let first := d.phys / pageSize
    let s ← forRangeM first (min (u64 (first + d.pages)) s.totalPages)
      (fun p s => s.bitmapClear p) s
    return { s with usablePages := u64 (s.usablePages + d.pages) }

/-- `memset(bitmap, 0xFF, bitmap_bytes)`. -/
def fillBitmap (s : Pmm) : Pmm :=
  { s with mem := fun a =>
      if s.bitmap ≤ a ∧ a < s.bitmap + s.bitmapBytes then 0xFF#8 else s.mem a }

end Pmm

/-- One round of the loop that finds the highest ConventionalMemory address. -/
def maxAddrRound (bi : BootInfo) (i maxAddr : Nat) : Nat :=
  let d := bi.desc i
  if d.type ≠ conventionalMemory then maxAddr
  else
    let e := u64 (d.phys + u64 (d.pages * pageSize))
    if e > maxAddr then e else maxAddr

/-- `max_addr` after the loop over the map. -/
def maxAddr (bi : BootInfo) : Nat := forRange 0 bi.count (maxAddrRound bi) 0

/-- One round of the loop that picks the region of the bitmap, on `(best, best_pages)`. -/
def bestRound (bi : BootInfo) (i : Nat) (best : Nat × Nat) : Nat × Nat :=
  let d := bi.desc i
  if d.type ≠ conventionalMemory then best
  else if d.pages > best.2 then (d.phys, d.pages) else best

/-- `(best, best_pages)` after the loop over the map. -/
def bestRegion (bi : BootInfo) : Nat × Nat := forRange 0 bi.count (bestRound bi) (0, 0)

/-- `bitmap_bytes` for a number of pages. -/
def bytesFor (totalPages : Nat) : Nat := alignUp (u64 (totalPages / 8 + 1)) pageSize

/-- The ranges `pmm_init` passes to `reserv_range`, in order: `(start, size)`. -/
def reservations (bi : BootInfo) (k : KernelImage) (bitmap bitmapBytes : Nat) :
    List (Nat × Nat) :=
  [(0, 0x100000),
   (0x400000, 0x100000),
   (k.kernelStart, u64 (k.kernelEnd + 2 ^ 64 - k.kernelStart)),
   (bitmap, bitmapBytes),
   (bi.fb.base, bi.fb.size),
   (u64 (bi.stackTop + 2 ^ 64 - 128 * 1024), 128 * 1024),
   (bi.mmapAddr, bi.mmapSize),
   (0x400000, 0x100000)]

/-- `reserv_range` over a list of ranges. -/
def reservAll : List (Nat × Nat) → Pmm → Except Stop Pmm
  | [], s => .ok s
  | r :: rs, s => do
    let s ← s.reservRange r.1 r.2
    reservAll rs s

/-- `pmm_init(bi)`, on the zeroed statics of the kernel image. -/
def pmmInit (bi : BootInfo) (k : KernelImage) (mem : Mem) : Except Stop Pmm :=
  if bi.mmapDsize = 0 ∨ bi.mmapSize = 0 then .error (.panic "Memory map is missing")
  else if maxAddr bi = 0 then .error (.panic "No convetnional memory found")
  else
    let totalPages := maxAddr bi / pageSize
    let bitmapBytes := bytesFor totalPages
    let best := bestRegion bi
    let bitmap := alignUp best.1 pageSize
    if u64 (bitmap + bitmapBytes) > u64 (best.1 + u64 (best.2 * pageSize)) then
      .error (.panic "Bitmap does not fit into memory")
    else do
      let s : Pmm :=
        { mem, bitmap, bitmapBytes, totalPages, usedPages := 0, usablePages := 0, lastAlloc := 0 }
      let s ← forRangeM 0 bi.count (Pmm.clearDesc bi) s.fillBitmap
      reservAll (reservations bi k bitmap bitmapBytes) s

end TRS.Memory
