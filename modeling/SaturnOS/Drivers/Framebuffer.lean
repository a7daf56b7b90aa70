import Mathlib.Data.BitVec
import SaturnOS.Machinery.Rasters
import SaturnOS.Memory.AddressSpace

/-!
# Drivers/Framebuffer — rectangles and characters, in pixels

    (x, y) ──▸ ┌────────┐           . # # # . .
               │        │ height    # . . . # .
               └────────┘           # . . . # .
                 width              # # # # # .  ⋯

`drivers/video/framebuffer.c`: the screen is the words from `FRAMEBUFFER_BASE` on, row by row, and
every index into them comes from here.  A rectangle is painted after its ends are computed in 32
bits, so what is painted is the rectangle exactly when the ends do not wrap
(`fillRect_exact_iff`).
-/

open Machinery

namespace SaturnOS

/-! ## Rectangles -/

def framebufferWidth : ℕ := 640
def framebufferHeight : ℕ := 480

/-- The words from `FRAMEBUFFER_BASE` on. -/
abbrev Pixels := ℕ → BitVec 32

def framebufferFillRect (fb : Pixels) (x y width height color : BitVec 32) : Pixels :=
  let xEnd := x + width
  let yEnd := y + height
  if 640#32 ≤ x ∨ 480#32 ≤ y then fb
  else
    let xEnd := if 640#32 < xEnd then 640#32 else xEnd
    let yEnd := if 480#32 < yEnd then 480#32 else yEnd
    sweep framebufferWidth x.toNat xEnd.toNat y.toNat yEnd.toNat (fun _ _ => color) fb

def framebufferClear (fb : Pixels) (color : BitVec 32) : Pixels :=
  framebufferFillRect fb 0 0 640 480 color

section Rectangles

variable {fb : Pixels} {x y width height color : BitVec 32} {i : ℕ}

/-- **What is painted**, for all arguments. -/
theorem fillRect_apply (fb : Pixels) (x y width height color : BitVec 32) (i : ℕ) :
    framebufferFillRect fb x y width height color i =
      if InRect framebufferWidth x.toNat (min (x + width).toNat 640)
          y.toNat (min (y + height).toNat 480) i then color else fb i := by
  have hclip : ∀ limit e : BitVec 32,
      (if limit < e then limit else e).toNat = min e.toNat limit.toNat := by
    intro limit e
    split
    · rename_i hlt
      exact (Nat.min_eq_right (Nat.le_of_lt hlt)).symm
    · rename_i hle
      exact (Nat.min_eq_left (Nat.le_of_not_lt hle)).symm
  rw [framebufferFillRect]
  by_cases hout : 640#32 ≤ x ∨ 480#32 ≤ y
  · rw [if_pos hout, if_neg]
    rw [BitVec.le_def, BitVec.le_def] at hout
    rintro ⟨⟨hx, hx'⟩, hy, hy'⟩
    have h640 : (640#32).toNat = 640 := rfl
    have h480 : (480#32).toNat = 480 := rfl
    omega
  · rw [if_neg hout, sweep_apply (looksAhead_const color) (by decide)
      (by rw [hclip]; exact Nat.min_le_right _ _), hclip, hclip]
    rfl

/-- A pixel of the screen, in the rectangle. -/
def Covered (x y width height : BitVec 32) (i : ℕ) : Prop :=
  i < framebufferWidth * framebufferHeight ∧
    (x.toNat ≤ i % framebufferWidth ∧ i % framebufferWidth < x.toNat + width.toNat) ∧
    y.toNat ≤ i / framebufferWidth ∧ i / framebufferWidth < y.toNat + height.toNat

instance : Decidable (Covered x y width height i) := inferInstanceAs (Decidable (_ ∧ _))

/-- **A rectangle whose ends do not wrap is painted.** -/
theorem fillRect_covered (hx : x.toNat + width.toNat < 2 ^ 32)
    (hy : y.toNat + height.toNat < 2 ^ 32) (i : ℕ) :
    framebufferFillRect fb x y width height color i =
      if Covered x y width height i then color else fb i := by
  rw [fillRect_apply]
  refine if_congr ?_ rfl rfl
  rw [InRect, Covered, BitVec.toNat_add_of_lt hx, BitVec.toNat_add_of_lt hy, framebufferWidth,
    framebufferHeight]
  omega

/-- …and one whose ends wrap, though it has pixels on the screen, is not. -/
theorem fillRect_wraps (hx : x.toNat < 640) (hy : y.toNat < 480)
    (h : 2 ^ 32 ≤ x.toNat + width.toNat ∨ 2 ^ 32 ≤ y.toNat + height.toNat) :
    framebufferFillRect fb x y width height color = fb := by
  refine funext fun i => ?_
  rw [fillRect_apply, if_neg]
  rintro ⟨⟨hlow, hhigh⟩, hlow', hhigh'⟩
  have hwidth := width.isLt
  have hheight := height.isLt
  rw [BitVec.toNat_add] at hhigh hhigh'
  omega

/-- **`framebuffer_fill_rect` paints the rectangle's pixels of the screen and no others, exactly
when** it has none, or its ends do not wrap, or its pixels have the colour already. -/
theorem fillRect_exact_iff (fb : Pixels) (x y width height color : BitVec 32) :
    (∀ i, framebufferFillRect fb x y width height color i =
      if Covered x y width height i then color else fb i) ↔
    (640 ≤ x.toNat ∨ 480 ≤ y.toNat ∨ width = 0 ∨ height = 0 ∨
      x.toNat + width.toNat < 2 ^ 32 ∧ y.toNat + height.toNat < 2 ^ 32) ∨
    ∀ i, Covered x y width height i → fb i = color := by
  by_cases hnowrap : x.toNat + width.toNat < 2 ^ 32 ∧ y.toNat + height.toNat < 2 ^ 32
  · exact iff_of_true (fillRect_covered hnowrap.1 hnowrap.2)
      (.inl (.inr (.inr (.inr (.inr hnowrap)))))
  by_cases hempty : 640 ≤ x.toNat ∨ 480 ≤ y.toNat ∨ width = 0 ∨ height = 0
  · have hnone : ∀ i, ¬ Covered x y width height i := by
      rintro i ⟨hi, ⟨hlow, hhigh⟩, hlow', hhigh'⟩
      have hcol : i % framebufferWidth < 640 := Nat.mod_lt i (by decide)
      have hrow : i / framebufferWidth < 480 := Nat.div_lt_of_lt_mul hi
      rcases hempty with h | h | rfl | rfl
      · omega
      · omega
      · exact absurd hhigh (Nat.not_lt.mpr hlow)
      · exact absurd hhigh' (Nat.not_lt.mpr hlow')
    refine iff_of_true (fun i => ?_) (.inr fun i hi => absurd hi (hnone i))
    rw [if_neg (hnone i), fillRect_apply, if_neg]
    rintro ⟨⟨hlow, hhigh⟩, hlow', hhigh'⟩
    rcases hempty with h | h | rfl | rfl
    · omega
    · omega
    · rw [show x + 0 = x from BitVec.add_zero x] at hhigh
      omega
    · rw [show y + 0 = y from BitVec.add_zero y] at hhigh'
      omega
  · have hwraps : framebufferFillRect fb x y width height color = fb :=
      fillRect_wraps (by omega) (by omega) (by omega)
    rw [hwraps]
    refine ⟨fun h => .inr fun i hi => (h i).trans (if_pos hi), ?_⟩
    rintro (h | h) i
    · exact absurd h (fun h => by tauto)
    · split
      · exact h i ‹_›
      · rfl

/-- A rectangle of one row, as wide as 32 bits count, from column 1 on: its end wraps to 0. -/
theorem fillRect_paints_nothing :
    Covered 1 0 0xffffffff 1 1 ∧ framebufferFillRect (fun _ => 0) 1 0 0xffffffff 1 0x101820 1 = 0 ∧
    ¬ ∀ i, framebufferFillRect (fun _ => 0) 1 0 0xffffffff 1 0x101820 i =
      if Covered 1 0 0xffffffff 1 i then 0x101820 else 0 := by
  refine ⟨by decide, by decide, fun h => ?_⟩
  have hone := h 1
  revert hone
  decide

/-- Rows above and below are left alone. -/
theorem fillRect_rows (hy : y.toNat + height.toNat < 2 ^ 32)
    (hi : i / framebufferWidth < y.toNat ∨ y.toNat + height.toNat ≤ i / framebufferWidth) :
    framebufferFillRect fb x y width height color i = fb i := by
  rw [fillRect_apply, if_neg]
  rintro ⟨-, hlow, hhigh⟩
  rw [BitVec.toNat_add_of_lt hy] at hhigh
  omega

/-- A rectangle inside the screen. -/
theorem fillRect_inside (hx : x.toNat + width.toNat ≤ 640) (hy : y.toNat + height.toNat ≤ 480) :
    framebufferFillRect fb x y width height color i =
      if InRect framebufferWidth x.toNat (x.toNat + width.toNat) y.toNat
        (y.toNat + height.toNat) i then color else fb i := by
  rw [fillRect_apply, BitVec.toNat_add_of_lt (by omega), BitVec.toNat_add_of_lt (by omega),
    Nat.min_eq_left hx, Nat.min_eq_left hy]

end Rectangles

/-! ## Characters -/

/-- The rows of a glyph, its five columns in the low bits. -/
abbrev Glyph := List Byte

def glyphBlank : Glyph := [0, 0, 0, 0, 0, 0, 0]

/-- The `switch` of `framebuffer_glyph`. -/
def glyphs : List (Char × Glyph) := [
  ('0', [0x0e, 0x11, 0x13, 0x15, 0x19, 0x11, 0x0e]),
  ('1', [0x04, 0x0c, 0x04, 0x04, 0x04, 0x04, 0x0e]),
  ('2', [0x0e, 0x11, 0x01, 0x02, 0x04, 0x08, 0x1f]),
  ('3', [0x1e, 0x01, 0x01, 0x0e, 0x01, 0x01, 0x1e]),
  ('4', [0x02, 0x06, 0x0a, 0x12, 0x1f, 0x02, 0x02]),
  ('5', [0x1f, 0x10, 0x10, 0x1e, 0x01, 0x01, 0x1e]),
  ('6', [0x0e, 0x10, 0x10, 0x1e, 0x11, 0x11, 0x0e]),
  ('7', [0x1f, 0x01, 0x02, 0x04, 0x08, 0x08, 0x08]),
  ('8', [0x0e, 0x11, 0x11, 0x0e, 0x11, 0x11, 0x0e]),
  ('9', [0x0e, 0x11, 0x11, 0x0f, 0x01, 0x01, 0x0e]),
  ('A', [0x0e, 0x11, 0x11, 0x1f, 0x11, 0x11, 0x11]),
  ('B', [0x1e, 0x11, 0x11, 0x1e, 0x11, 0x11, 0x1e]),
  ('C', [0x0f, 0x10, 0x10, 0x10, 0x10, 0x10, 0x0f]),
  ('D', [0x1e, 0x11, 0x11, 0x11, 0x11, 0x11, 0x1e]),
  ('E', [0x1f, 0x10, 0x10, 0x1e, 0x10, 0x10, 0x1f]),
  ('F', [0x1f, 0x10, 0x10, 0x1e, 0x10, 0x10, 0x10]),
  ('G', [0x0f, 0x10, 0x10, 0x13, 0x11, 0x11, 0x0f]),
  ('H', [0x11, 0x11, 0x11, 0x1f, 0x11, 0x11, 0x11]),
  ('I', [0x0e, 0x04, 0x04, 0x04, 0x04, 0x04, 0x0e]),
  ('J', [0x07, 0x02, 0x02, 0x02, 0x12, 0x12, 0x0c]),
  ('K', [0x11, 0x12, 0x14, 0x18, 0x14, 0x12, 0x11]),
  ('L', [0x10, 0x10, 0x10, 0x10, 0x10, 0x10, 0x1f]),
  ('M', [0x11, 0x1b, 0x15, 0x15, 0x11, 0x11, 0x11]),
  ('N', [0x11, 0x19, 0x15, 0x13, 0x11, 0x11, 0x11]),
  ('O', [0x0e, 0x11, 0x11, 0x11, 0x11, 0x11, 0x0e]),
  ('P', [0x1e, 0x11, 0x11, 0x1e, 0x10, 0x10, 0x10]),
  ('Q', [0x0e, 0x11, 0x11, 0x11, 0x15, 0x12, 0x0d]),
  ('R', [0x1e, 0x11, 0x11, 0x1e, 0x14, 0x12, 0x11]),
  ('S', [0x0f, 0x10, 0x10, 0x0e, 0x01, 0x01, 0x1e]),
  ('T', [0x1f, 0x04, 0x04, 0x04, 0x04, 0x04, 0x04]),
  ('U', [0x11, 0x11, 0x11, 0x11, 0x11, 0x11, 0x0e]),
  ('V', [0x11, 0x11, 0x11, 0x11, 0x0a, 0x0a, 0x04]),
  ('W', [0x11, 0x11, 0x11, 0x15, 0x15, 0x1b, 0x11]),
  ('X', [0x11, 0x11, 0x0a, 0x04, 0x0a, 0x11, 0x11]),
  ('Y', [0x11, 0x11, 0x0a, 0x04, 0x04, 0x04, 0x04]),
  ('Z', [0x1f, 0x01, 0x02, 0x04, 0x08, 0x10, 0x1f]),
  (':', [0x00, 0x04, 0x04, 0x00, 0x04, 0x04, 0x00]),
  ('-', [0x00, 0x00, 0x00, 0x1f, 0x00, 0x00, 0x00]),
  ('.', [0x00, 0x00, 0x00, 0x00, 0x00, 0x0c, 0x0c]),
  ('=', [0x00, 0x00, 0x1f, 0x00, 0x1f, 0x00, 0x00]),
  ('(', [0x02, 0x04, 0x08, 0x08, 0x08, 0x04, 0x02]),
  (')', [0x08, 0x04, 0x02, 0x02, 0x02, 0x04, 0x08]),
  ('/', [0x01, 0x01, 0x02, 0x04, 0x08, 0x10, 0x10]),
  ('_', [0x00, 0x00, 0x00, 0x00, 0x00, 0x00, 0x1f]),
  ('>', [0x10, 0x08, 0x04, 0x02, 0x04, 0x08, 0x10]),
  ('<', [0x01, 0x02, 0x04, 0x08, 0x04, 0x02, 0x01]),
  ('[', [0x0e, 0x08, 0x08, 0x08, 0x08, 0x08, 0x0e]),
  (']', [0x0e, 0x02, 0x02, 0x02, 0x02, 0x02, 0x0e]),
  ('{', [0x06, 0x08, 0x08, 0x10, 0x08, 0x08, 0x06]),
  ('}', [0x0c, 0x02, 0x02, 0x01, 0x02, 0x02, 0x0c]),
  ('|', [0x04, 0x04, 0x04, 0x04, 0x04, 0x04, 0x04]),
  ('+', [0x00, 0x04, 0x04, 0x1f, 0x04, 0x04, 0x00]),
  ('*', [0x00, 0x15, 0x0e, 0x1f, 0x0e, 0x15, 0x00]),
  ('%', [0x18, 0x19, 0x02, 0x04, 0x08, 0x13, 0x03]),
  ('!', [0x04, 0x04, 0x04, 0x04, 0x04, 0x00, 0x04]),
  ('?', [0x0e, 0x11, 0x01, 0x02, 0x04, 0x00, 0x04]),
  (Char.ofNat 0x22, [0x0a, 0x0a, 0x0a, 0x00, 0x00, 0x00, 0x00]),
  (Char.ofNat 0x27, [0x04, 0x04, 0x08, 0x00, 0x00, 0x00, 0x00]),
  (Char.ofNat 0x5c, [0x10, 0x10, 0x08, 0x04, 0x02, 0x01, 0x01]),
  (',', [0x00, 0x00, 0x00, 0x00, 0x00, 0x04, 0x08]),
  (';', [0x00, 0x04, 0x04, 0x00, 0x04, 0x04, 0x08])
]

def framebufferGlyph (c : Byte) : Glyph :=
  let c := if 0x61#8 ≤ c ∧ c ≤ 0x7a#8 then c - 0x20 else c
  match glyphs.find? fun entry => entry.1.toNat == c.toNat with
  | some entry => entry.2
  | none => glyphBlank

/-- `glyph[row] & (1U << (4 - col))` -/
def glyphBit (glyph : Glyph) (row col : ℕ) : Bool :=
  (glyph.getD row 0).setWidth 32 &&& (1#32 <<< (4 - col)) != 0

def framebufferDrawChar (fb : Pixels) (x y : BitVec 32) (c : Byte)
    (foreground background scale : BitVec 32) : Pixels :=
  let glyph := framebufferGlyph c
  let scale := if scale = 0 then 1 else scale
  let fb := framebufferFillRect fb x y (6 * scale) (8 * scale) background
  countUp 0 7 (fun row => countUp 0 5 fun col fb =>
    if glyphBit glyph row col then
      framebufferFillRect fb (x + BitVec.ofNat 32 col * scale) (y + BitVec.ofNat 32 row * scale)
        scale scale foreground
    else fb) fb

/-- The loop of `framebuffer_write_at`, at its cursor. -/
def writeAtLoop (x : BitVec 32) (foreground background scale : BitVec 32) :
    List Byte → BitVec 32 → BitVec 32 → Pixels → Pixels
  | [], _, _, fb => fb
  | c :: text, cursorX, cursorY, fb =>
    if c = 0x0a then
      writeAtLoop x foreground background scale text x (cursorY + 8 * scale) fb
    else
      writeAtLoop x foreground background scale text (cursorX + 6 * scale) cursorY
        (framebufferDrawChar fb cursorX cursorY c foreground background scale)

def framebufferWriteAt (fb : Pixels) (x y : BitVec 32) (text : List Byte)
    (foreground background scale : BitVec 32) : Pixels :=
  let scale := if scale = 0 then 1 else scale
  writeAtLoop x foreground background scale text x y fb

section Characters

variable {fb : Pixels} {x y foreground background : BitVec 32} {c : Byte} {i : ℕ}

/-- The glyph has the pixel, at twice its size. -/
def glyphPixel (c : Byte) (dx dy : ℕ) : Prop :=
  dx < 10 ∧ dy < 14 ∧ glyphBit (framebufferGlyph c) (dy / 2) (dx / 2) = true

instance {dx dy : ℕ} : Decidable (glyphPixel c dx dy) := inferInstanceAs (Decidable (_ ∧ _))

/-- A dot of the glyph. -/
def glyphDot (fb : Pixels) (x y : BitVec 32) (c : Byte) (foreground : BitVec 32) (row col : ℕ) :
    Pixels :=
  if glyphBit (framebufferGlyph c) row col then
    framebufferFillRect fb (x + BitVec.ofNat 32 col * 2) (y + BitVec.ofNat 32 row * 2) 2 2
      foreground
  else fb

theorem drawChar_eq : framebufferDrawChar fb x y c foreground background 2 =
    countUp 0 7 (fun row => countUp 0 5 fun col fb => glyphDot fb x y c foreground row col)
      (framebufferFillRect fb x y 12 16 background) := rfl

theorem toNat_twice {n : ℕ} (hn : n < 7) : (BitVec.ofNat 32 n * 2).toNat = 2 * n := by
  rw [BitVec.toNat_mul, BitVec.toNat_ofNat, Nat.mod_eq_of_lt (show n < 2 ^ 32 by omega)]
  show n * 2 % 2 ^ 32 = 2 * n
  omega

theorem glyphDot_apply (hx : x.toNat + 12 ≤ 640) (hy : y.toNat + 16 ≤ 480) {row col : ℕ}
    (hrow : row < 7) (hcol : col < 5) : glyphDot fb x y c foreground row col i =
      if glyphBit (framebufferGlyph c) row col = true ∧
        InRect framebufferWidth (x.toNat + 2 * col) (x.toNat + 2 * col + 2)
          (y.toNat + 2 * row) (y.toNat + 2 * row + 2) i then foreground else fb i := by
  rw [glyphDot]
  cases glyphBit (framebufferGlyph c) row col with
  | true =>
    have hleft : (x + BitVec.ofNat 32 col * 2).toNat = x.toNat + 2 * col := by
      rw [BitVec.toNat_add, toNat_twice (by omega), Nat.mod_eq_of_lt (by omega)]
    have htop : (y + BitVec.ofNat 32 row * 2).toNat = y.toNat + 2 * row := by
      rw [BitVec.toNat_add, toNat_twice hrow, Nat.mod_eq_of_lt (by omega)]
    have htwo : (2 : BitVec 32).toNat = 2 := rfl
    rw [if_pos rfl, fillRect_inside (by omega) (by omega), hleft, htop, htwo]
    exact if_congr (iff_and_self.mpr fun _ => rfl) rfl rfl
  | false => rfl

/-- The dots of a glyph are its pixels. -/
theorem exists_dot :
    (∃ row, 0 ≤ row ∧ row < 7 ∧ ∃ col, 0 ≤ col ∧ col < 5 ∧
      glyphBit (framebufferGlyph c) row col = true ∧
        InRect framebufferWidth (x.toNat + 2 * col) (x.toNat + 2 * col + 2)
          (y.toNat + 2 * row) (y.toNat + 2 * row + 2) i) ↔
    InRect framebufferWidth x.toNat (x.toNat + 12) y.toNat (y.toNat + 16) i ∧
      glyphPixel c (i % framebufferWidth - x.toNat) (i / framebufferWidth - y.toNat) := by
  generalize hcolumn : i % framebufferWidth = column
  generalize hline : i / framebufferWidth = line
  rw [InRect, hcolumn, hline]
  constructor
  · rintro ⟨row, -, hrow, col, -, hcol, hbit, hin⟩
    rw [InRect, hcolumn, hline] at hin
    refine ⟨by omega, by omega, by omega, ?_⟩
    rwa [show (line - y.toNat) / 2 = row by omega, show (column - x.toNat) / 2 = col by omega]
  · rintro ⟨hin, hdx, hdy, hbit⟩
    refine ⟨(line - y.toNat) / 2, Nat.zero_le _, by omega, (column - x.toNat) / 2, Nat.zero_le _,
      by omega, hbit, ?_⟩
    rw [InRect, hcolumn, hline]
    omega

/-- **A character is drawn**: its glyph in the foreground, the rest of its 12 × 16 cell in the
background. -/
theorem drawChar_apply (hx : x.toNat + 12 ≤ 640) (hy : y.toNat + 16 ≤ 480) :
    framebufferDrawChar fb x y c foreground background 2 i =
      if InRect framebufferWidth x.toNat (x.toNat + 12) y.toNat (y.toNat + 16) i then
        if glyphPixel c (i % framebufferWidth - x.toNat) (i / framebufferWidth - y.toNat) then
          foreground
        else background
      else fb i := by
  classical
  have hrows : ∀ row fb i, 0 ≤ row → row < 7 →
      countUp 0 5 (fun col fb => glyphDot fb x y c foreground row col) fb i =
        if ∃ col, 0 ≤ col ∧ col < 5 ∧ glyphBit (framebufferGlyph c) row col = true ∧
          InRect framebufferWidth (x.toNat + 2 * col) (x.toNat + 2 * col + 2)
            (y.toNat + 2 * row) (y.toNat + 2 * row + 2) i then foreground else fb i :=
    fun row fb i _ hrow => countUp_marks (Q := fun col i =>
      glyphBit (framebufferGlyph c) row col = true ∧
        InRect framebufferWidth (x.toNat + 2 * col) (x.toNat + 2 * col + 2)
          (y.toNat + 2 * row) (y.toNat + 2 * row + 2) i)
      (fun col fb i _ hcol => glyphDot_apply hx hy hrow hcol) i
  have hwidth : (12 : BitVec 32).toNat = 12 := rfl
  have hheight : (16 : BitVec 32).toNat = 16 := rfl
  rw [drawChar_eq, countUp_marks hrows i, if_congr exists_dot rfl rfl,
    fillRect_inside (by omega) (by omega), hwidth, hheight]
  by_cases hcell : InRect framebufferWidth x.toNat (x.toNat + 12) y.toNat (y.toNat + 16) i
  · rw [if_pos hcell, if_pos hcell]
    exact if_congr (and_iff_right hcell) rfl rfl
  · rw [if_neg hcell, if_neg hcell, if_neg fun h => hcell h.1]

/-- Rows above and below are left alone… -/
theorem drawChar_rows (hy : y.toNat + 16 < 2 ^ 32)
    (hi : i / framebufferWidth < y.toNat ∨ y.toNat + 16 ≤ i / framebufferWidth) :
    framebufferDrawChar fb x y c foreground background 2 i = fb i := by
  rw [drawChar_eq]
  have hback : framebufferFillRect fb x y 12 16 background i = fb i := fillRect_rows hy hi
  refine countUp_keeps (P := fun _ (fb' : Pixels) => fb' i = fb i) (Nat.zero_le _) hback
    fun row fb' _ hrow h => ?_
  refine countUp_keeps (P := fun _ (fb' : Pixels) => fb' i = fb i) (Nat.zero_le _) h
    fun col fb'' _ _ h' => ?_
  rw [glyphDot]
  split
  · have htop : (y + BitVec.ofNat 32 row * 2).toNat = y.toNat + 2 * row := by
      rw [BitVec.toNat_add, toNat_twice hrow, Nat.mod_eq_of_lt (by omega)]
    have htwo : (2 : BitVec 32).toNat = 2 := rfl
    rw [fillRect_rows (by omega) (by omega), h']
  · exact h'

/-- …by a line of text, too. -/
theorem writeAt_rows {text : List Byte} (hy : y.toNat + 16 < 2 ^ 32) (htext : 0x0a ∉ text)
    (hi : i / framebufferWidth < y.toNat ∨ y.toNat + 16 ≤ i / framebufferWidth) :
    framebufferWriteAt fb x y text foreground background 2 i = fb i := by
  have hloop : ∀ cursorX fb,
      writeAtLoop x foreground background 2 text cursorX y fb i = fb i := by
    induction text with
    | nil => exact fun _ _ => rfl
    | cons c text ih =>
      intro cursorX fb
      obtain ⟨hc, htext⟩ := not_or.mp (mt List.mem_cons.mpr htext)
      rw [writeAtLoop, if_neg (Ne.symm hc), ih htext, drawChar_rows hy hi]
  exact hloop x fb

end Characters

end SaturnOS
