import SaturnOS.Drivers.Framebuffer
import SaturnOS.Machinery.Bytes

/-!
# Drivers/Console — the text console on the framebuffer

    0                 49
    ┌───────────────────┐
    │ s a t u r n > _   │        putc: hide the cursor, act, show it again
    │                   │
    └───────────────────┘ 24

The console half of `drivers/video/framebuffer.c`.  Writing goes on to the next line after column
49, and scrolls after row 24; `'\b'` goes left but never up, so it undoes writing exactly on the
line where the writing began (`backspaces_undo_iff`).
-/

open Machinery

namespace SaturnOS

/-! ## Geometry -/

/-- The layout of the screen, in pixels: a header, the text, and a status line at the foot; then its
colours. -/
def consoleScale : BitVec 32 := 2
def consoleMarginX : BitVec 32 := 16
def consoleHeaderHeight : BitVec 32 := 30
def consoleStatusHeight : BitVec 32 := 28
def consoleStatusY : BitVec 32 := 480 - consoleStatusHeight
def consoleTextBottom : BitVec 32 := consoleStatusY - 4
def consoleMarginY : BitVec 32 := consoleHeaderHeight + 8
def consoleFg : BitVec 32 := 0x00f8f9fa
def consoleBg : BitVec 32 := 0x00101820
def consoleHeaderBg : BitVec 32 := 0x0016202c
def consoleDim : BitVec 32 := 0x004ecdc4
def consoleBorder : BitVec 32 := 0x00304758
def consoleMuted : BitVec 32 := 0x009aa7b5
def consoleCursor : BitVec 32 := 0x00ffd166
def consoleCursorThickness : BitVec 32 := 2

/-- A cell holds a glyph of five by seven and a gap, at twice its size; the grid is what fits
between the margins, fifty columns and twenty-five rows. -/
def consoleCellWidth : BitVec 32 := 6 * consoleScale
def consoleCellHeight : BitVec 32 := 8 * consoleScale
def consoleColumns : BitVec 32 := (640 - consoleMarginX * 2) / consoleCellWidth
def consoleRows : BitVec 32 := (consoleTextBottom - consoleMarginY) / consoleCellHeight
def consoleTextWidth : BitVec 32 := consoleColumns * consoleCellWidth
def consoleTextHeight : BitVec 32 := consoleRows * consoleCellHeight

/-! ## The functions -/

/-- The statics of the file. -/
structure Console where
  framebuffer : Pixels
  ready : Bool
  column : BitVec 32
  row : BitVec 32
  cursorVisible : Bool
  /-- Of no use to the source: how many rows have been scrolled away. -/
  scrolls : ℕ

namespace Console

/-- The left edge of the cursor's cell… -/
def x (s : Console) : BitVec 32 := consoleMarginX + s.column * consoleCellWidth

/-- …and its upper edge. -/
def y (s : Console) : BitVec 32 := consoleMarginY + s.row * consoleCellHeight

/-- `console_clamp_cursor`: a cursor outside the grid is brought to its edge. -/
def clampCursor (s : Console) : Console :=
  let s := if consoleColumns ≤ s.column then { s with column := consoleColumns - 1 } else s
  if consoleRows ≤ s.row then { s with row := consoleRows - 1 } else s

/-- `console_draw_cursor`: a stroke along the foot of the cell and one along its right edge. -/
def drawCursor (s : Console) (color : BitVec 32) : Console :=
  let fb := framebufferFillRect s.framebuffer s.x
    (s.y + consoleCellHeight - consoleCursorThickness) consoleCellWidth consoleCursorThickness color
  { s with
    framebuffer := framebufferFillRect fb (s.x + consoleCellWidth - consoleCursorThickness) s.y
      consoleCursorThickness consoleCellHeight color }

/-- The cursor is drawn over in the background colour: its strokes lie in the gap of the cell… -/
def hideCursor (s : Console) : Console :=
  if !s.ready || !s.cursorVisible then s
  else { s.clampCursor.drawCursor consoleBg with cursorVisible := false }

/-- …and drawn again, where it is now. -/
def showCursor (s : Console) : Console :=
  if !s.ready then s
  else { s.clampCursor.drawCursor consoleCursor with cursorVisible := true }

/-- Each pixel gets the one a cell's height below it. -/
def scroll (s : Console) : Console :=
  let startY := consoleMarginY
  let endY := startY + consoleTextHeight
  let fb := sweep framebufferWidth consoleMarginX.toNat (consoleMarginX + consoleTextWidth).toNat
    startY.toNat (endY - consoleCellHeight).toNat
    (fun fb i => fb (i + consoleCellHeight.toNat * framebufferWidth)) s.framebuffer
  { s with
    framebuffer := framebufferFillRect fb consoleMarginX (endY - consoleCellHeight)
      consoleTextWidth consoleCellHeight consoleBg
    scrolls := s.scrolls + 1 }

/-- To the first column of the next row, which is the last one again after a scroll. -/
def newline (s : Console) : Console :=
  let s := { s with column := 0, row := s.row + 1 }
  if consoleRows ≤ s.row then { s.scroll with row := consoleRows - 1 } else s

/-- One cell on.  Behind the last column that is the next row at once, not when something is
written there. -/
def advance (s : Console) : Console :=
  let s := { s with column := s.column + 1 }
  if consoleColumns ≤ s.column then s.newline else s

/-- One cell back, and nothing in the first column: the row above is not gone back to. -/
def backspace (s : Console) : Console :=
  if s.column = 0 then s else { s with column := s.column - 1 }

/-- `framebuffer_console_putc`, `again` being the call it makes of itself for a tab. -/
def putcBody (again : Console → Byte → Console) (s : Console) (c : Byte) : Console :=
  if !s.ready then s
  else
    let s := s.hideCursor
    if c = 0x0d then { s with column := 0 }.showCursor
    else if c = 0x0a then s.newline.showCursor
    else if c = 0x08 ∨ c = 0x7f then s.backspace.showCursor
    else if c = 0x09 then (again (again (again (again s 0x20) 0x20) 0x20) 0x20).showCursor
    else
      let s := if consoleColumns ≤ s.column then s.newline else s
      let fb := framebufferDrawChar s.framebuffer s.x s.y c consoleFg consoleBg consoleScale
      { s with framebuffer := fb }.advance.showCursor

/-- The four spaces of a tab are no tabs. -/
def putc (s : Console) (c : Byte) : Console := putcBody (putcBody fun s _ => s) s c

/-- …and it is one function. -/
theorem putc_eq (s : Console) (c : Byte) : s.putc c = putcBody putc s c := by
  rfl

/-- The characters, one after the other. -/
def write (s : Console) (text : List Byte) : Console := text.foldl putc s

/-- The text of the status line, between its two borders.  It is written over what was there, and
neither the cursor nor the text of the console is touched. -/
def setStatus (s : Console) (text : Option (List Byte)) : Console :=
  match text with
  | none => s
  | some text =>
    if !s.ready then s
    else
      let fb := framebufferFillRect s.framebuffer 0 consoleStatusY 640 consoleStatusHeight
        consoleHeaderBg
      let fb := framebufferFillRect fb 0 (consoleStatusY - 2) 640 2 consoleBorder
      let fb := framebufferFillRect fb 0 (480 - 2) 640 2 consoleBorder
      { s with
        framebuffer := framebufferWriteAt fb consoleMarginX (consoleStatusY + 7) text consoleMuted
          consoleHeaderBg 2 }

/-- The empty screen: the header with its three texts, the borders, and the first status. -/
def drawLayout (s : Console) : Console :=
  let fb := framebufferClear s.framebuffer consoleBg
  let fb := framebufferFillRect fb 0 0 640 consoleHeaderHeight consoleHeaderBg
  let fb := framebufferFillRect fb 0 consoleHeaderHeight 640 2 consoleBorder
  let fb := framebufferFillRect fb 0 (consoleStatusY - 2) 640 2 consoleBorder
  let fb := framebufferFillRect fb 0 consoleStatusY 640 consoleStatusHeight consoleHeaderBg
  let fb := framebufferFillRect fb 0 (480 - 2) 640 2 consoleBorder
  let fb := framebufferWriteAt fb consoleMarginX 7 (ascii "SaturnOS") consoleFg consoleHeaderBg 2
  let fb := framebufferWriteAt fb (consoleMarginX + 120) 7 (ascii "0.6.95") consoleDim
    consoleHeaderBg 2
  let fb := framebufferWriteAt fb (640 - 160) 7 (ascii "ARM64 QEMU") consoleMuted consoleHeaderBg 2
  { s with framebuffer := fb }.setStatus (some (ascii "BOOTING | RAMFB ONLINE"))

/-- `framebuffer_console_init` -/
def init (s : Console) : Console :=
  if !s.ready then s
  else { s.drawLayout with column := 0, row := 0, cursorVisible := false }.showCursor

end Console

/-! ## The cursor -/

namespace Console

/-- The cursor is in the grid. -/
structure InGrid (s : Console) : Prop where
  column : s.column.toNat < 50
  row : s.row.toNat < 25

/-- The line of the cursor, counted from the first one ever shown… -/
def line (s : Console) : ℕ := s.row.toNat + s.scrolls

/-- …and its place, counted in characters. -/
def place (s : Console) : ℕ := 50 * s.line + s.column.toNat

/-- The cursor is where it was. -/
structure SameCursor (s s' : Console) : Prop where
  ready : s'.ready = s.ready
  column : s'.column = s.column
  row : s'.row = s.row
  scrolls : s'.scrolls = s.scrolls

variable {s s' : Console} {c : Byte}

/-- Hiding, drawing and showing compose. -/
theorem SameCursor.trans {s'' : Console} (h : SameCursor s s') (h' : SameCursor s' s'') :
    SameCursor s s'' :=
  ⟨h'.ready.trans h.ready, h'.column.trans h.column, h'.row.trans h.row,
    h'.scrolls.trans h.scrolls⟩

/-- A cursor in the grid is not clamped, so hiding and showing leave it where it is… -/
theorem InGrid.clampCursor (h : s.InGrid) : s.clampCursor = s := by
  have hcolumns : consoleColumns.toNat = 50 := rfl
  have hrows : consoleRows.toNat = 25 := rfl
  have hcolumn : ¬ consoleColumns ≤ s.column := by
    rw [BitVec.le_def, hcolumns]
    exact Nat.not_le.mpr h.column
  have hrow : ¬ consoleRows ≤ s.row := by
    rw [BitVec.le_def, hrows]
    exact Nat.not_le.mpr h.row
  rw [Console.clampCursor, if_neg hcolumn, if_neg hrow]

/-- …when it is hidden… -/
theorem InGrid.hideCursor (h : s.InGrid) : SameCursor s s.hideCursor := by
  rw [Console.hideCursor, h.clampCursor]
  split
  · exact ⟨rfl, rfl, rfl, rfl⟩
  · exact ⟨rfl, rfl, rfl, rfl⟩

/-- …and when it is shown. -/
theorem InGrid.showCursor (h : s.InGrid) : SameCursor s s.showCursor := by
  rw [Console.showCursor, h.clampCursor]
  split
  · exact ⟨rfl, rfl, rfl, rfl⟩
  · exact ⟨rfl, rfl, rfl, rfl⟩

/-- What depends on the cursor alone is the same: being in the grid… -/
theorem SameCursor.inGrid (h : SameCursor s s') (hs : s.InGrid) : s'.InGrid := by
  refine ⟨?_, ?_⟩
  · rw [h.column]
    exact hs.column
  · rw [h.row]
    exact hs.row

/-- …the line… -/
theorem SameCursor.line (h : SameCursor s s') : s'.line = s.line := by
  rw [Console.line, Console.line, h.row, h.scrolls]

/-- …and the place in it. -/
theorem SameCursor.place (h : SameCursor s s') : s'.place = s.place := by
  rw [Console.place, Console.place, h.line, h.column]

/-- A scroll moves pixels, and is counted; the cursor does not move with them. -/
@[simp] theorem scroll_ready (s : Console) : s.scroll.ready = s.ready := by simp only [scroll]

@[simp] theorem scroll_column (s : Console) : s.scroll.column = s.column := by simp only [scroll]

@[simp] theorem scroll_cursorVisible (s : Console) :
    s.scroll.cursorVisible = s.cursorVisible := by simp only [scroll]

@[simp] theorem scroll_scrolls (s : Console) : s.scroll.scrolls = s.scrolls + 1 := by
  simp only [scroll]

/-- Whether it scrolls or not, a new line keeps the console ready… -/
@[simp] theorem newline_ready (s : Console) : s.newline.ready = s.ready := by
  simp only [newline]
  split
  · rw [scroll_ready]
  · rfl

/-- …and begins in the first column. -/
@[simp] theorem newline_column (s : Console) : s.newline.column = 0 := by
  simp only [newline]
  split
  · rw [scroll_column]
  · rfl

/-- The next row is counted without a wrap. -/
theorem toNat_row_succ (hrow : s.row.toNat < 25) : (s.row + 1).toNat = s.row.toNat + 1 :=
  BitVec.toNat_add_of_lt (by
    show s.row.toNat + 1 < _
    omega)

/-- A line further down… -/
theorem newline_next (hrow : s.row.toNat < 24) :
    s.newline = { s with column := 0, row := s.row + 1 } := by
  have hrows : consoleRows.toNat = 25 := rfl
  have hsucc := toNat_row_succ (Nat.lt_succ_of_lt hrow)
  simp only [newline]
  rw [if_neg]
  rw [BitVec.le_def, hrows, hsucc]
  omega

/-- …or a scroll. -/
theorem newline_last (hrow : s.row.toNat = 24) : s.newline =
    { ({ s with column := 0, row := s.row + 1 } : Console).scroll with
      row := consoleRows - 1 } := by
  have hrows : consoleRows.toNat = 25 := rfl
  have hsucc := toNat_row_succ (s := s) (by omega)
  simp only [newline]
  rw [if_pos]
  rw [BitVec.le_def, hrows, hsucc]
  omega

/-- The row stops at the last one, and what it would have gone on by is scrolled. -/
theorem newline_row (hrow : s.row.toNat < 25) :
    s.newline.row.toNat = min (s.row.toNat + 1) 24 ∧
      s.newline.scrolls = s.scrolls + (s.row.toNat + 1 - 24) := by
  have hlast : (consoleRows - 1).toNat = 24 := rfl
  rcases Nat.lt_succ_iff_lt_or_eq.mp hrow with hlt | heq
  · rw [newline_next hlt, toNat_row_succ hrow]
    dsimp only
    omega
  · rw [newline_last heq, scroll_scrolls, hlast]
    dsimp only
    omega

/-- **A new line** begins one line further down… -/
theorem newline_line (hrow : s.row.toNat < 25) :
    s.newline.InGrid ∧ s.newline.line = s.line + 1 := by
  obtain ⟨hrow', hscrolls⟩ := newline_row hrow
  refine ⟨⟨?_, ?_⟩, ?_⟩
  · rw [newline_column]
    exact Nat.zero_lt_succ 49
  · omega
  · rw [line, line]
    omega

/-- …and going on is one place further. -/
theorem InGrid.advance (h : s.InGrid) :
    s.advance.InGrid ∧ s.advance.ready = s.ready ∧ s.advance.place = s.place + 1 := by
  have hcolumns : consoleColumns.toNat = 50 := rfl
  have hcolumn := h.column
  have hsucc : (s.column + 1).toNat = s.column.toNat + 1 := BitVec.toNat_add_of_lt (by
    show s.column.toNat + 1 < _
    omega)
  simp only [Console.advance]
  by_cases hend : consoleColumns ≤ s.column + 1
  · rw [if_pos hend]
    rw [BitVec.le_def, hcolumns, hsucc] at hend
    obtain ⟨hgrid, hline⟩ := newline_line (s := { s with column := s.column + 1 }) h.row
    refine ⟨hgrid, newline_ready _, ?_⟩
    rw [place, place, hline, newline_column]
    show 50 * (s.line + 1) + 0 = 50 * s.line + s.column.toNat + 1
    omega
  · rw [if_neg hend]
    rw [BitVec.le_def, hcolumns, Nat.not_le] at hend
    refine ⟨⟨hend, h.row⟩, rfl, ?_⟩
    show 50 * s.line + (s.column + 1).toNat = 50 * s.line + s.column.toNat + 1
    omega

/-- A backspace goes left, on its line. -/
theorem InGrid.backspace (h : s.InGrid) :
    s.backspace.InGrid ∧ s.backspace.ready = s.ready ∧ s.backspace.line = s.line ∧
      s.backspace.column.toNat = s.column.toNat - 1 := by
  rw [Console.backspace]
  by_cases hzero : s.column = 0
  · rw [if_pos hzero, hzero]
    exact ⟨h, rfl, rfl, rfl⟩
  · have hone : (1 : BitVec 32) ≤ s.column := by
      rw [BitVec.le_def]
      exact Nat.one_le_iff_ne_zero.mpr fun h0 => hzero (BitVec.eq_of_toNat_eq h0)
    have hpred : (s.column - 1).toNat = s.column.toNat - 1 := BitVec.toNat_sub_of_le hone
    rw [if_neg hzero]
    refine ⟨⟨?_, h.row⟩, rfl, rfl, hpred⟩
    rw [hpred]
    exact Nat.lt_of_le_of_lt (Nat.sub_le _ _) h.column

/-- A character that is drawn. -/
def Drawn (c : Byte) : Prop := c ≠ 0x0d ∧ c ≠ 0x0a ∧ c ≠ 0x08 ∧ c ≠ 0x7f ∧ c ≠ 0x09

/-- Before the framebuffer is set up nothing is drawn and nothing moves. -/
theorem putc_not_ready (h : s.ready = false) (c : Byte) : s.putc c = s := by
  rw [putc, putcBody, h]
  rfl

/-- The body without the tests that fail. -/
theorem putc_eq_draw (hready : s.ready = true) (hc : Drawn c)
    (hcolumn : s.hideCursor.column.toNat < 50) :
    s.putc c = { s.hideCursor with
      framebuffer := framebufferDrawChar s.hideCursor.framebuffer s.hideCursor.x s.hideCursor.y c
        consoleFg consoleBg consoleScale }.advance.showCursor := by
  obtain ⟨hcr, hlf, hbs, hdel, htab⟩ := hc
  have hcolumns : consoleColumns.toNat = 50 := rfl
  have hfits : ¬ consoleColumns ≤ s.hideCursor.column := by
    rw [BitVec.le_def, hcolumns]
    exact Nat.not_le.mpr hcolumn
  rw [putc, putcBody, hready]
  simp only [Bool.not_true, Bool.false_eq_true, if_false, if_neg hcr, if_neg hlf,
    if_neg (not_or.mpr ⟨hbs, hdel⟩), if_neg htab, if_neg hfits]

/-- **A character is written**: the cursor goes on… -/
theorem putc_drawn (h : s.InGrid) (hready : s.ready = true) (hc : Drawn c) :
    (s.putc c).InGrid ∧ (s.putc c).ready = true ∧ (s.putc c).place = s.place + 1 := by
  have hhide := h.hideCursor
  have hgrid := hhide.inGrid h
  rw [putc_eq_draw hready hc hgrid.column]
  generalize framebufferDrawChar _ _ _ _ _ _ _ = fb
  obtain ⟨hadvance, hready', hplace⟩ :=
    InGrid.advance (s := { s.hideCursor with framebuffer := fb }) ⟨hgrid.column, hgrid.row⟩
  have hshow := hadvance.showCursor
  refine ⟨hshow.inGrid hadvance, hshow.ready.trans (hready'.trans (hhide.ready.trans hready)), ?_⟩
  rw [hshow.place, hplace]
  exact congrArg (· + 1) hhide.place

/-- …and a backspace takes it back, on its line. -/
theorem putc_backspace (h : s.InGrid) (hready : s.ready = true) :
    (s.putc 0x08).InGrid ∧ (s.putc 0x08).ready = true ∧ (s.putc 0x08).line = s.line ∧
      (s.putc 0x08).column.toNat = s.column.toNat - 1 := by
  have hputc : s.putc 0x08 = s.hideCursor.backspace.showCursor := by
    rw [putc, putcBody, hready]
    simp only [Bool.not_true, Bool.false_eq_true, if_false]
    rfl
  have hhide := h.hideCursor
  obtain ⟨hback, hready', hline, hcolumn⟩ := InGrid.backspace (hhide.inGrid h)
  have hshow := hback.showCursor
  rw [hputc]
  refine ⟨hshow.inGrid hback, hshow.ready.trans (hready'.trans (hhide.ready.trans hready)), ?_, ?_⟩
  · rw [hshow.line, hline, hhide.line]
  · rw [hshow.column, hcolumn, hhide.column]

/-- **A run of characters**… -/
theorem write_drawn {text : List Byte} (h : s.InGrid) (hready : s.ready = true)
    (htext : ∀ c ∈ text, Drawn c) : (s.write text).InGrid ∧ (s.write text).ready = true ∧
      (s.write text).place = s.place + text.length := by
  induction text generalizing s with
  | nil => exact ⟨h, hready, rfl⟩
  | cons c text ih =>
    obtain ⟨hc, htext⟩ := List.forall_mem_cons.mp htext
    obtain ⟨hgrid, hready', hplace⟩ := putc_drawn h hready hc
    obtain ⟨hgrid', hready'', hplace'⟩ := ih hgrid hready' htext
    refine ⟨hgrid', hready'', hplace'.trans ?_⟩
    rw [hplace, List.length_cons, Nat.add_assoc, Nat.add_comm 1]

/-- …and a run of backspaces. -/
theorem write_backspaces (h : s.InGrid) (hready : s.ready = true) (n : ℕ) :
    (s.write (List.replicate n 0x08)).line = s.line ∧
      (s.write (List.replicate n 0x08)).column.toNat = s.column.toNat - n := by
  induction n generalizing s with
  | zero => exact ⟨rfl, rfl⟩
  | succ n ih =>
    obtain ⟨hgrid, hready', hline, hcolumn⟩ := putc_backspace h hready
    obtain ⟨hline', hcolumn'⟩ := ih hgrid hready'
    refine ⟨hline'.trans hline, hcolumn'.trans ?_⟩
    rw [hcolumn, Nat.sub_sub, Nat.add_comm 1]

/-- …by no text. -/
theorem write_not_ready (h : s.ready = false) (text : List Byte) : s.write text = s := by
  induction text with
  | nil => rfl
  | cons c text ih => exact (congrArg (Console.write · text) (putc_not_ready h c)).trans ih

/-- The printable characters are all drawn. -/
theorem drawn_of_printable (hc : 0x20#8 ≤ c ∧ c ≤ 0x7e#8) : Drawn c := by
  refine ⟨?_, ?_, ?_, ?_, ?_⟩
  all_goals
    rintro rfl
    exact absurd hc (by decide)

/-- **Backspacing undoes writing exactly on the line where the writing began**: as many backspaces
as characters lead back to the cell of the first one precisely when none of them has made the
cursor go on to the next line. -/
theorem backspaces_undo_iff (s : Console) (h : s.InGrid) (text : List Byte)
    (htext : ∀ c ∈ text, 0x20#8 ≤ c ∧ c ≤ 0x7e#8) :
    ((s.write (text ++ List.replicate text.length 0x08)).column = s.column ∧
      (s.write (text ++ List.replicate text.length 0x08)).line = s.line) ↔
    s.ready = false ∨ s.column.toNat + text.length < 50 := by
  cases hready : s.ready with
  | false =>
    rw [write_not_ready hready]
    exact iff_of_true ⟨rfl, rfl⟩ (.inl rfl)
  | true =>
    have hcolumn := h.column
    obtain ⟨hgrid, hready', hplace⟩ :=
      write_drawn h hready fun c hc => drawn_of_printable (htext c hc)
    obtain ⟨hline', hcolumn'⟩ := write_backspaces hgrid hready' text.length
    have hend := hgrid.column
    rw [show s.write (text ++ List.replicate text.length 0x08)
        = (s.write text).write (List.replicate text.length 0x08) from List.foldl_append,
      hline', ← BitVec.toNat_inj, hcolumn']
    rw [place, place] at hplace
    refine ⟨fun ⟨_, hsame⟩ => .inr ?_, fun hfits => ?_⟩
    · omega
    · have hfits := hfits.resolve_left Bool.true_eq_false.mp
      omega

/-- Behind a prompt of eight characters, `ls` can be taken back. -/
theorem backspaces_undo_prompt :
    (⟨fun _ => 0, true, 8, 24, true, 0⟩ : Console).InGrid ∧
    ((⟨fun _ => 0, true, 8, 24, true, 0⟩ : Console).write ([0x6c, 0x73] ++ [0x08, 0x08])).column
      = 8 :=
  ⟨⟨by decide, by decide⟩,
    ((backspaces_undo_iff ⟨fun _ => 0, true, 8, 24, true, 0⟩ ⟨by decide, by decide⟩ [0x6c, 0x73]
      (by decide)).mpr (.inr (by decide))).1⟩

/-- From the last column, one character cannot be taken back. -/
theorem backspace_stays_below : ¬ ((
    (⟨fun _ => 0, true, 49, 0, true, 0⟩ : Console).write ([0x61] ++ [0x08])).column = 49 ∧
    ((⟨fun _ => 0, true, 49, 0, true, 0⟩ : Console).write ([0x61] ++ [0x08])).line = 0) := by
  decide

end Console

end SaturnOS
