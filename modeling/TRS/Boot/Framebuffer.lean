import TRS.Console.Bounds
import TRS.Lib.Loop

/-!
# The framebuffer that the boot loader chooses

`init_framebuf` of `bootloader/uefi/boot.c`, over the answers of the graphics output protocol, and
the colours that the kernel stores under the masks that it passes on. A pixel format keeps each
component of a pixel in eight bits of its own (`Layout`).

* `initFramebuf_masks`: the masks that the boot loader passes on, for each pixel format.
* `stored_shows`: the masks keep every component of a colour.
* `reversed_shows`: with red and blue exchanged a word shows its colour if the two are alike.
* `eq_wordLayout`: a layout that shows every colour is that of the words.

The headline `colors_reproduced_iff` is by cases on the pixel format; `red_not_reproduced` is the
format with red in the lowest byte.
-/

namespace TRS.Boot
open TRS.Lib TRS.Console

/-- `EFI_GRAPHICS_PIXEL_FORMAT`. -/
inductive PixelFormat where
  | redGreenBlueReserved8BitPerColor
  | blueGreenRedReserved8BitPerColor
  | bitMask
  | bltOnly
  | formatMax
  deriving DecidableEq, Repr

/-- `EFI_PIXEL_BITMASK`. -/
structure PixelBitmask where
  redMask : Pixel
  greenMask : Pixel
  blueMask : Pixel
  reservedMask : Pixel

/-- `EFI_GRAPHICS_OUTPUT_MODE_INFORMATION`, with the fields the loader reads. -/
structure ModeInfo where
  horizontalResolution : Nat
  verticalResolution : Nat
  pixelFormat : PixelFormat
  pixelInformation : PixelBitmask
  pixelsPerScanLine : Nat

/-- `EFI_GRAPHICS_OUTPUT_PROTOCOL_MODE`, with the fields the loader reads. -/
structure Mode where
  maxMode : Nat
  mode : Nat
  info : ModeInfo
  frameBufferBase : Nat
  frameBufferSize : Nat

/-- The graphics output protocol: its current mode, what `QueryMode` answers for a mode, if it
    succeeds, and the mode that is current after a `SetMode`. -/
structure Gop where
  mode : Mode
  queryMode : (i : Nat) → Option ModeInfo
  setMode : (best : Nat) → Mode

/-- `framebuf_info_t`. -/
structure FramebufInfo where
  base : Nat
  size : Nat
  width : Nat
  height : Nat
  pitch : Nat
  bpp : Nat
  rmask : Pixel
  gmask : Pixel
  bmask : Pixel
  reservedMask : Pixel

/-- A round of the loop over the modes, on `best` and `bestpx`. -/
def Gop.compare (gop : Gop) (i : Nat) (best : Nat × Nat) : Nat × Nat :=
  match gop.queryMode i with
  | none => best
  | some mi =>
    let px := u32 (mi.horizontalResolution * mi.verticalResolution)
    if px > best.2 then (i, px) else best

/-- `best`, after the loop over the modes. -/
def Gop.best (gop : Gop) : Nat := (forRange 0 gop.mode.maxMode gop.compare (gop.mode.mode, 0)).1

/-- `gop->Mode`, after the best mode is set. -/
def Gop.chosen (gop : Gop) : Mode :=
  if gop.best ≠ gop.mode.mode then gop.setMode gop.best else gop.mode

/-- `rm`, `gm` and `bm`; `none` in the default case. -/
def masksOf (mi : ModeInfo) : Option Masks :=
  match mi.pixelFormat with
  | .redGreenBlueReserved8BitPerColor => some ⟨0xFF0000#32, 0x00FF00#32, 0x0000FF#32⟩
  | .blueGreenRedReserved8BitPerColor => some ⟨0x0000FF#32, 0x00FF00#32, 0xFF0000#32⟩
  | .bitMask => some ⟨mi.pixelInformation.redMask, mi.pixelInformation.greenMask,
      mi.pixelInformation.blueMask⟩
  | .bltOnly | .formatMax => none

/-- `init_framebuf()`, which leaves `_bootinfo.fb` or stops in `fatal`; the argument is the protocol
    that `LocateProtocol` finds, if it does. -/
def initFramebuf : Option Gop → Except String FramebufInfo
  | none => .error "framebuffer initialization."
  | some gop =>
    let mode := gop.chosen
    let mi := mode.info
    match masksOf mi with
    | none => .error "no linear framebufer"
    | some masks =>
      let fb : FramebufInfo :=
        { base := mode.frameBufferBase
          size := mode.frameBufferSize
          width := mi.horizontalResolution
          height := mi.verticalResolution
          pitch := u32 (mi.pixelsPerScanLine * 4)
          bpp := 32
          rmask := masks.rmask
          gmask := masks.gmask
          bmask := masks.bmask
          reservedMask := mi.pixelInformation.reservedMask }
      if fb.base = 0 ∨ fb.width = 0 ∨ fb.height = 0 then .error "bad framebuffer." else .ok fb

/-- The masks that `dsp_set_color` reads. -/
def FramebufInfo.masks (fb : FramebufInfo) : Masks := ⟨fb.rmask, fb.gmask, fb.bmask⟩

/-! ## Pixel formats and colours -/

/-- The lowest bits of the three components of a pixel. -/
structure Layout where
  red : Nat
  green : Nat
  blue : Nat
  deriving DecidableEq, Repr

/-- Two components of eight bits each share no bit. -/
def Apart (s t : Nat) : Prop := s + 8 ≤ t ∨ t + 8 ≤ s

/-- The components lie in the word, and share no bit. -/
structure Layout.Valid (l : Layout) : Prop where
  red : l.red ≤ 24
  green : l.green ≤ 24
  blue : l.blue ≤ 24
  red_green : Apart l.red l.green
  green_blue : Apart l.green l.blue
  red_blue : Apart l.red l.blue

/-- The mask of the eight bits from `s` on. -/
def maskAt (s : Nat) : Pixel := 0xFF#32 <<< s

/-- The eight bits from `s` on. -/
def byteAt (w : Pixel) (s : Nat) : Byte := w.extractLsb' s 8

/-- Where a mode keeps the components: for the two fixed formats as the bytes of the pixel are
    specified, and where its masks are for the third. -/
def ModeInfo.HasLayout (mi : ModeInfo) (l : Layout) : Prop :=
  match mi.pixelFormat with
  | .redGreenBlueReserved8BitPerColor => l = ⟨0, 8, 16⟩
  | .blueGreenRedReserved8BitPerColor => l = ⟨16, 8, 0⟩
  | .bitMask => l.Valid ∧ mi.pixelInformation.redMask = maskAt l.red ∧
      mi.pixelInformation.greenMask = maskAt l.green ∧ mi.pixelInformation.blueMask = maskAt l.blue
  | .bltOnly | .formatMax => False

/-- A colour. -/
structure Color where
  red : Byte
  green : Byte
  blue : Byte
  deriving DecidableEq, Repr

/-- The colour as `0xRRGGBB`. -/
def Color.word (c : Color) : Pixel := 0#8 ++ c.red ++ c.green ++ c.blue

/-- The pixel shows the colour. -/
def Layout.Shows (l : Layout) (w : Pixel) (c : Color) : Prop :=
  byteAt w l.red = c.red ∧ byteAt w l.green = c.green ∧ byteAt w l.blue = c.blue

instance (l : Layout) (w : Pixel) (c : Color) : Decidable (l.Shows w c) := by
  unfold Layout.Shows; infer_instance

/-- The layout of `0xRRGGBB` itself. -/
def wordLayout : Layout := ⟨16, 8, 0⟩

/-! ## What the kernel stores -/

/-- A mask that covers the eight bits from `s` on keeps them. -/
lemma byteAt_and {m : Pixel} {s : Nat} (cover : byteAt m s = 0xFF#8) (w : Pixel) :
    byteAt (w &&& m) s = byteAt w s := by
  unfold byteAt at cover ⊢
  have ones : (0xFF#8 : Byte) = BitVec.allOnes 8 := rfl
  rw [BitVec.extractLsb'_and, cover, ones, BitVec.and_allOnes]

/-- The mask at an offset covers the byte there. -/
lemma byteAt_maskAt : ∀ s ≤ 24, byteAt (maskAt s) s = 0xFF#8 := by
  decide

/-- A byte that one of two masks covers is covered by both together. -/
lemma byteAt_or {m n : Pixel} {s : Nat} (cover : byteAt m s = 0xFF#8 ∨ byteAt n s = 0xFF#8) :
    byteAt (m ||| n) s = 0xFF#8 := by
  unfold byteAt at cover ⊢
  have ones : (0xFF#8 : Byte) = BitVec.allOnes 8 := rfl
  rw [BitVec.extractLsb'_or]
  rcases cover with here | here
  · rw [here, ones, BitVec.allOnes_or]
  · rw [here, ones, BitVec.or_allOnes]

/-- In the layout of a mode no two components share a bit. -/
lemma ModeInfo.HasLayout.valid {mi : ModeInfo} {l : Layout} (h : mi.HasLayout l) : l.Valid := by
  unfold HasLayout at h
  split at h
  · obtain rfl := h
    constructor <;> simp [Apart]
  · obtain rfl := h
    constructor <;> simp [Apart]
  · exact h.1
  · exact h.elim
  · exact h.elim

/-- The masks of an accepted mode cover its three components. They need not be the masks of these
    components: those of the two fixed formats are exchanged. -/
lemma masksOf_cover {mi : ModeInfo} {m : Masks} {l : Layout} (ok : masksOf mi = some m)
    (fmt : mi.HasLayout l) :
    byteAt (m.rmask ||| m.gmask ||| m.bmask) l.red = 0xFF#8 ∧
      byteAt (m.rmask ||| m.gmask ||| m.bmask) l.green = 0xFF#8 ∧
      byteAt (m.rmask ||| m.gmask ||| m.bmask) l.blue = 0xFF#8 := by
  have valid := fmt.valid
  unfold masksOf at ok
  unfold ModeInfo.HasLayout at fmt
  cases format : mi.pixelFormat with
  | redGreenBlueReserved8BitPerColor =>
    rw [format] at ok fmt
    cases ok
    obtain rfl := fmt
    decide
  | blueGreenRedReserved8BitPerColor =>
    rw [format] at ok fmt
    cases ok
    obtain rfl := fmt
    decide
  | bitMask =>
    rw [format] at ok fmt
    cases ok
    obtain ⟨_, red, green, blue⟩ := fmt
    dsimp only
    rw [red, green, blue]
    refine ⟨?_, ?_, ?_⟩
    · exact byteAt_or (.inl (byteAt_or (.inl (byteAt_maskAt _ valid.red))))
    · exact byteAt_or (.inl (byteAt_or (.inr (byteAt_maskAt _ valid.green))))
    · exact byteAt_or (.inr (byteAt_maskAt _ valid.blue))
  | bltOnly =>
    rw [format] at ok
    cases ok
  | formatMax =>
    rw [format] at ok
    cases ok

/-- The masks of the framebuffer are those of the chosen mode. -/
lemma initFramebuf_masks {gop : Gop} {fb : FramebufInfo} (ok : initFramebuf (some gop) = .ok fb) :
    masksOf gop.chosen.info = some fb.masks := by
  unfold initFramebuf at ok
  dsimp only at ok
  split at ok
  · cases ok
  · next masks e =>
    split at ok
    · cases ok
    · cases ok
      exact e

/-- The bytes of a word that the kernel stores, at the places of the components, are those of the
    colour it is given. -/
lemma stored_shows {m : Masks} {l : Layout} (w : Pixel)
    (cover : byteAt (m.rmask ||| m.gmask ||| m.bmask) l.red = 0xFF#8 ∧
      byteAt (m.rmask ||| m.gmask ||| m.bmask) l.green = 0xFF#8 ∧
      byteAt (m.rmask ||| m.gmask ||| m.bmask) l.blue = 0xFF#8) (c : Color) :
    l.Shows (w &&& m.rmask ||| w &&& m.gmask ||| w &&& m.bmask) c ↔ l.Shows w c := by
  obtain ⟨red, green, blue⟩ := cover
  unfold Layout.Shows
  rw [← BitVec.and_or_distrib_left, ← BitVec.and_or_distrib_left, byteAt_and red, byteAt_and green,
    byteAt_and blue]

/-- The bytes of `0xRRGGBB`. -/
lemma wordLayout_shows (c : Color) : wordLayout.Shows c.word c := by
  unfold wordLayout Layout.Shows byteAt Color.word
  refine ⟨?_, ?_, ?_⟩
  · exact (BitVec.extractLsb'_append_eq_of_le (by decide)).trans
      ((BitVec.extractLsb'_append_eq_of_le (by decide)).trans BitVec.extractLsb'_append_eq_right)
  · exact (BitVec.extractLsb'_append_eq_of_le (by decide)).trans BitVec.extractLsb'_append_eq_right
  · exact BitVec.extractLsb'_append_eq_right

/-- In the layout of the other fixed format a word shows its colour if red and blue are alike. -/
lemma reversed_shows (c : Color) : Layout.Shows ⟨0, 8, 16⟩ c.word c ↔ c.red = c.blue := by
  obtain ⟨red, green, blue⟩ := wordLayout_shows c
  unfold Layout.Shows
  unfold wordLayout at red green blue
  dsimp only at red green blue ⊢
  rw [red, green, blue]
  exact ⟨fun h => h.1.symm, fun e => ⟨e.symm, rfl, e⟩⟩

/-- A layout that shows every colour in its own word is that of the words. -/
lemma eq_wordLayout {l : Layout} (valid : l.Valid) (all : ∀ c : Color, l.Shows c.word c) :
    l = wordLayout := by
  have place : ∀ s ≤ 24, (byteAt (Color.word ⟨0xFF#8, 0#8, 0#8⟩) s = 0xFF#8 → s = 16) ∧
      (byteAt (Color.word ⟨0#8, 0xFF#8, 0#8⟩) s = 0xFF#8 → s = 8) ∧
      (byteAt (Color.word ⟨0#8, 0#8, 0xFF#8⟩) s = 0xFF#8 → s = 0) := by
    decide
  obtain ⟨red, green, blue⟩ := l
  have r : red = 16 := (place red valid.red).1 (all ⟨0xFF#8, 0#8, 0#8⟩).1
  have g : green = 8 := (place green valid.green).2.1 (all ⟨0#8, 0xFF#8, 0#8⟩).2.1
  have b : blue = 0 := (place blue valid.blue).2.2 (all ⟨0#8, 0#8, 0xFF#8⟩).2.2
  rw [r, g, b]
  rfl

/-- A pixel that the kernel stores shows its colour exactly if the bytes of `0xRRGGBB` at the places
    of the components are those components. So all colours are shown exactly if the mode keeps the
    components where the word has them. -/
theorem colors_reproduced_iff {gop : Gop} {fb : FramebufInfo}
    (ok : initFramebuf (some gop) = .ok fb) {l : Layout} (fmt : gop.chosen.info.HasLayout l)
    (d : Display) :
    (∀ f b : Color, l.Shows (d.dspSetColor fb.masks f.word b.word).fg f ∧
        l.Shows (d.dspSetColor fb.masks f.word b.word).bg b ↔
      l.Shows f.word f ∧ l.Shows b.word b) ∧
    ((∀ f b : Color, l.Shows (d.dspSetColor fb.masks f.word b.word).fg f ∧
        l.Shows (d.dspSetColor fb.masks f.word b.word).bg b) ↔ l = wordLayout) := by
  have cover := masksOf_cover (initFramebuf_masks ok) fmt
  have one : ∀ f b : Color, l.Shows (d.dspSetColor fb.masks f.word b.word).fg f ∧
      l.Shows (d.dspSetColor fb.masks f.word b.word).bg b ↔
        l.Shows f.word f ∧ l.Shows b.word b :=
    fun f b => and_congr (stored_shows f.word cover f) (stored_shows b.word cover b)
  refine ⟨one, fun all => ?_, ?_⟩
  · exact eq_wordLayout fmt.valid fun c => ((one c c).mp (all c c)).1
  · rintro rfl f b
    exact (one f b).mpr ⟨wordLayout_shows f, wordLayout_shows b⟩

/-- Two modes, the second of which is the larger one. -/
def gopOf (format : PixelFormat) : Gop :=
  let info : (w h : Nat) → ModeInfo := fun w h => ⟨w, h, format, ⟨0#32, 0#32, 0#32, 0#32⟩, w⟩
  { mode := ⟨2, 0, info 640 480, 0x80000000, 0x200000⟩
    queryMode := fun i => if i = 0 then some (info 640 480) else some (info 1024 768)
    setMode := fun best => ⟨2, best, info 1024 768, 0x80000000, 0x300000⟩ }

/-- The framebuffer of the larger mode. -/
def largerFb (masks : Masks) : FramebufInfo :=
  ⟨0x80000000, 0x300000, 1024, 768, 4096, 32, masks.rmask, masks.gmask, masks.bmask, 0#32⟩

/-- `0xFF0000` and `0x000000`. -/
def pureRed : Color := ⟨0xFF#8, 0#8, 0#8⟩
def black : Color := ⟨0#8, 0#8, 0#8⟩

/-- Both colours are shown right where the word has the layout that the console writes. -/
theorem colors_reproduced_iff_larger :
    wordLayout.Shows (farState.display.dspSetColor
        (largerFb ⟨0xFF#32, 0xFF00#32, 0xFF0000#32⟩).masks pureRed.word black.word).fg pureRed ∧
      wordLayout.Shows (farState.display.dspSetColor
        (largerFb ⟨0xFF#32, 0xFF00#32, 0xFF0000#32⟩).masks pureRed.word black.word).bg black := by
  have ok : initFramebuf (some (gopOf .blueGreenRedReserved8BitPerColor)) =
      .ok (largerFb ⟨0xFF#32, 0xFF00#32, 0xFF0000#32⟩) := rfl
  exact (colors_reproduced_iff ok rfl farState.display).2.mpr rfl pureRed black

/-- Under the format with red in the lowest byte, pure red is not shown. -/
theorem red_not_reproduced :
    initFramebuf (some (gopOf .redGreenBlueReserved8BitPerColor)) =
        .ok (largerFb ⟨0xFF0000#32, 0xFF00#32, 0xFF#32⟩) ∧
      (gopOf .redGreenBlueReserved8BitPerColor).chosen.info.HasLayout ⟨0, 8, 16⟩ ∧
      ¬ Layout.Shows ⟨0, 8, 16⟩ (farState.display.dspSetColor
        (largerFb ⟨0xFF0000#32, 0xFF00#32, 0xFF#32⟩).masks pureRed.word black.word).fg pureRed := by
  refine ⟨rfl, rfl, fun shown => ?_⟩
  have kept : Layout.Shows ⟨0, 8, 16⟩ pureRed.word pureRed :=
    (stored_shows pureRed.word (by decide) pureRed).mp shown
  exact absurd ((reversed_shows pureRed).mp kept) (by decide)

end TRS.Boot
