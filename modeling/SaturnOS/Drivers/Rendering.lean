import SaturnOS.Drivers.Console
import SaturnOS.Machinery.Terminals

/-!
# Drivers/Rendering — what the console shows is a terminal

    Terminal ──put──▸ Terminal          cell 12 × 16      ┌──────────┬──┐
       │                 │                                │  glyph   │▒▒│
     shows             shows                              │ 10 × 14  │▒▒│
       ▾                 ▾                                ├──────────┘▒▒│
    Console ──putc──▸ Console                             └▒▒▒▒▒▒▒▒▒▒▒▒▒┘ cursor

The pixels of the text area are the characters of a 25 × 50 terminal, drawn: the glyph of a
character is in the upper left of its cell, and the cursor in the two columns and two rows that are
left, so that showing and hiding it spares the glyphs; the rows of pixels that a scroll moves are
whole rows of cells.
-/

open Machinery

namespace SaturnOS

/-! ## What is shown -/

/-- A pixel of the text area. -/
abbrev InText (i : ℕ) : Prop := InRect framebufferWidth 16 616 38 438 i

/-- A pixel of the cell. -/
abbrev InCell (row column i : ℕ) : Prop :=
  InRect framebufferWidth (16 + 12 * column) (16 + 12 * column + 12)
    (38 + 16 * row) (38 + 16 * row + 16) i

/-- A pixel of the cursor, in the cell. -/
def OnCursor (row column i : ℕ) : Prop :=
  InCell row column i ∧ (26 + 12 * column ≤ i % framebufferWidth ∨
    52 + 16 * row ≤ i / framebufferWidth)

instance {row column i : ℕ} : Decidable (OnCursor row column i) :=
  inferInstanceAs (Decidable (_ ∧ _))

/-- The pixel of the characters: a pixel of a glyph, or the background. -/
def rendered (grid : ℕ → ℕ → Byte) (i : ℕ) : BitVec 32 :=
  if glyphPixel (grid ((i / framebufferWidth - 38) / 16) ((i % framebufferWidth - 16) / 12))
      ((i % framebufferWidth - 16) % 12) ((i / framebufferWidth - 38) % 16) then
    consoleFg
  else consoleBg

/-- The console shows the terminal, its cursor apart: outside the text area are the pixels of
`frame`. -/
structure ShowsText (frame : Pixels) (t : Terminal Byte) (s : Console) : Prop where
  text : ∀ i, InText i → ¬ OnCursor t.row t.column i → s.framebuffer i = rendered t.grid i
  frame : ∀ i, ¬ InText i → s.framebuffer i = frame i

/-- The console stands at the cursor of the terminal. -/
structure At (t : Terminal Byte) (s : Console) : Prop where
  ready : s.ready = true
  row : s.row.toNat = t.row
  column : s.column.toNat = t.column
  inGrid : t.InGrid 25 50

/-- The cursor is hidden, and all the text area shows characters. -/
structure Hidden (frame : Pixels) (t : Terminal Byte) (s : Console) : Prop extends At t s where
  hidden : s.cursorVisible = false
  text : ∀ i, InText i → s.framebuffer i = rendered t.grid i
  frame : ∀ i, ¬ InText i → s.framebuffer i = frame i

/-- The cursor is shown, and the rest of the text area shows characters. -/
structure Shown (frame : Pixels) (t : Terminal Byte) (s : Console) : Prop extends
    At t s, ShowsText frame t s where
  visible : s.cursorVisible = true

/-- The rules of a terminal. -/
def typed (t : Terminal Byte) (c : Byte) : Terminal Byte :=
  let put (t : Terminal Byte) (c : Byte) := t.put 25 50 0x20 c
  if c = 0x0d then t.home
  else if c = 0x0a then t.newline 25 0x20
  else if c = 0x08 ∨ c = 0x7f then t.back
  else if c = 0x09 then put (put (put (put t 0x20) 0x20) 0x20) 0x20
  else put t c

section Pixels

variable {frame : Pixels} {t : Terminal Byte} {s : Console} {color : BitVec 32} {i : ℕ}

theorem At.x (h : At t s) : s.x.toNat = 16 + 12 * t.column := by
  have hmargin : consoleMarginX.toNat = 16 := rfl
  have hwidth : consoleCellWidth.toNat = 12 := rfl
  have hcolumn := h.inGrid.column
  rw [Console.x, BitVec.toNat_add, BitVec.toNat_mul, hmargin, hwidth, h.column]
  omega

theorem At.y (h : At t s) : s.y.toNat = 38 + 16 * t.row := by
  have hmargin : consoleMarginY.toNat = 38 := rfl
  have hheight : consoleCellHeight.toNat = 16 := rfl
  have hrow := h.inGrid.row
  rw [Console.y, BitVec.toNat_add, BitVec.toNat_mul, hmargin, hheight, h.row]
  omega

theorem At.consoleInGrid (h : At t s) : s.InGrid :=
  ⟨h.column ▸ h.inGrid.column, h.row ▸ h.inGrid.row⟩

/-- **The cursor is drawn**, and nothing else. -/
theorem At.drawCursor (h : At t s) (color : BitVec 32) (i : ℕ) :
    (s.drawCursor color).framebuffer i =
      if OnCursor t.row t.column i then color else s.framebuffer i := by
  have hx := h.x
  have hy := h.y
  have hcolumn := h.inGrid.column
  have hrow := h.inGrid.row
  have hthickness : consoleCursorThickness.toNat = 2 := rfl
  have hwidth : consoleCellWidth.toNat = 12 := rfl
  have hheight : consoleCellHeight.toNat = 16 := rfl
  have hbottom : (s.y + consoleCellHeight - consoleCursorThickness).toNat = 52 + 16 * t.row := by
    bv_omega
  have hright : (s.x + consoleCellWidth - consoleCursorThickness).toNat = 26 + 12 * t.column := by
    bv_omega
  simp only [Console.drawCursor]
  rw [fillRect_inside (by omega) (by omega), fillRect_inside (by omega) (by omega), hbottom,
    hright, hx, hy, hthickness, hwidth, hheight, ← ite_or]
  refine if_congr ?_ rfl rfl
  simp only [OnCursor, InCell, InRect]
  omega

theorem At.inText (h : At t s) (hi : InCell t.row t.column i) : InText i := by
  have hcolumn := h.inGrid.column
  have hrow := h.inGrid.row
  obtain ⟨⟨hleft, hright⟩, htop, hbottom⟩ := hi
  exact ⟨⟨by omega, by omega⟩, by omega, by omega⟩

/-- **The cursor is where no glyph is.** -/
theorem rendered_onCursor {row column : ℕ} {grid : ℕ → ℕ → Byte} (h : OnCursor row column i) :
    rendered grid i = consoleBg := by
  obtain ⟨⟨⟨hleft, hright⟩, htop, hbottom⟩, hcursor⟩ := h
  rw [rendered, if_neg]
  rintro ⟨hdx, hdy, -⟩
  omega

theorem glyphPixel_space (dx dy : ℕ) : ¬ glyphPixel 0x20 dx dy := by
  rintro ⟨-, -, hbit⟩
  have hzero : ∀ row, (framebufferGlyph 0x20).getD row 0 = 0 := by
    intro row
    rw [show framebufferGlyph 0x20 = List.replicate 7 0 by decide, List.getD_eq_getElem?_getD,
      List.getElem?_replicate]
    split
    · rfl
    · rfl
  rw [glyphBit, hzero] at hbit
  simp at hbit

/-- A cell is drawn from its own character. -/
theorem rendered_inCell {row column : ℕ} {grid : ℕ → ℕ → Byte} (h : InCell row column i) :
    rendered grid i =
      if glyphPixel (grid row column) (i % framebufferWidth - (16 + 12 * column))
        (i / framebufferWidth - (38 + 16 * row)) then consoleFg else consoleBg := by
  obtain ⟨⟨hleft, hright⟩, htop, hbottom⟩ := h
  rw [rendered, show (i / framebufferWidth - 38) / 16 = row by omega,
    show (i % framebufferWidth - 16) / 12 = column by omega,
    show (i % framebufferWidth - 16) % 12 = i % framebufferWidth - (16 + 12 * column) by omega,
    show (i / framebufferWidth - 38) % 16 = i / framebufferWidth - (38 + 16 * row) by omega]

/-- …and a pixel of another cell from another one. -/
theorem rendered_congr {grid grid' : ℕ → ℕ → Byte}
    (h : grid' ((i / framebufferWidth - 38) / 16) ((i % framebufferWidth - 16) / 12)
      = grid ((i / framebufferWidth - 38) / 16) ((i % framebufferWidth - 16) / 12)) :
    rendered grid' i = rendered grid i := by
  rw [rendered, rendered, h]

/-! ## Each operation -/

/-- **Hiding the cursor** leaves the characters… -/
theorem Shown.hideCursor (h : Shown frame t s) : Hidden frame t s.hideCursor := by
  have hcursor := h.toAt.drawCursor consoleBg
  have heq : s.hideCursor = { s.drawCursor consoleBg with cursorVisible := false } := by
    rw [Console.hideCursor, h.ready, h.visible, h.consoleInGrid.clampCursor]
    rfl
  rw [heq]
  refine ⟨⟨h.ready, h.row, h.column, h.inGrid⟩, rfl, fun i hi => ?_, fun i hi => ?_⟩
  · refine (hcursor i).trans ?_
    split
    · exact (rendered_onCursor ‹_›).symm
    · exact h.text i hi ‹_›
  · exact ((hcursor i).trans (if_neg fun hon => hi (h.inText hon.1))).trans (h.frame i hi)

theorem Hidden.hideCursor (h : Hidden frame t s) : s.hideCursor = s := by
  rw [Console.hideCursor, h.hidden, Bool.not_false, Bool.or_true, if_pos rfl]

/-- …and so does showing it. -/
theorem ShowsText.showCursor (h : ShowsText frame t s) (hat : At t s) :
    Shown frame t s.showCursor := by
  have hcursor := hat.drawCursor consoleCursor
  have heq : s.showCursor = { s.drawCursor consoleCursor with cursorVisible := true } := by
    rw [Console.showCursor, hat.ready, hat.consoleInGrid.clampCursor]
    rfl
  rw [heq]
  refine ⟨⟨hat.ready, hat.row, hat.column, hat.inGrid⟩, ⟨fun i hi hon => ?_, fun i hi => ?_⟩, rfl⟩
  · exact ((hcursor i).trans (if_neg hon)).trans (h.text i hi hon)
  · exact ((hcursor i).trans (if_neg fun hon => hi (hat.inText hon.1))).trans (h.frame i hi)

theorem Hidden.showCursor (h : Hidden frame t s) : Shown frame t s.showCursor :=
  ShowsText.showCursor ⟨fun i hi _ => h.text i hi, h.frame⟩ h.toAt

/-- **The cursor goes left**… -/
theorem Hidden.back (h : Hidden frame t s) : Hidden frame t.back s.backspace := by
  rw [Console.backspace]
  by_cases hzero : s.column = 0
  · rw [if_pos hzero]
    refine ⟨⟨h.ready, h.row, ?_, h.inGrid.back⟩, h.hidden, h.text, h.frame⟩
    show s.column.toNat = t.column - 1
    rw [← h.column, hzero]
    rfl
  · have hone : (1 : BitVec 32) ≤ s.column := by
      rw [BitVec.le_def]
      exact Nat.one_le_iff_ne_zero.mpr fun h0 => hzero (BitVec.eq_of_toNat_eq h0)
    rw [if_neg hzero]
    refine ⟨⟨h.ready, h.row, ?_, h.inGrid.back⟩, h.hidden, h.text, h.frame⟩
    show (s.column - 1).toNat = t.column - 1
    rw [BitVec.toNat_sub_of_le hone, h.column]
    rfl

theorem Hidden.home (h : Hidden frame t s) : Hidden frame t.home { s with column := 0 } :=
  ⟨⟨h.ready, h.row, rfl, h.inGrid.home⟩, h.hidden, h.text, h.frame⟩

/-- **A character is drawn**. -/
theorem Hidden.draw (h : Hidden frame t s) (c : Byte) : Hidden frame (t.draw c)
    { s with
      framebuffer :=
        framebufferDrawChar s.framebuffer s.x s.y c consoleFg consoleBg consoleScale } := by
  have hx := h.toAt.x
  have hy := h.toAt.y
  have hcolumn := h.inGrid.column
  have hrow := h.inGrid.row
  have hdrawn : ∀ i, framebufferDrawChar s.framebuffer s.x s.y c consoleFg consoleBg consoleScale i
      = if InCell t.row t.column i then
          if glyphPixel c (i % framebufferWidth - (16 + 12 * t.column))
            (i / framebufferWidth - (38 + 16 * t.row)) then consoleFg else consoleBg
        else s.framebuffer i := by
    intro i
    rw [consoleScale, drawChar_apply (by omega) (by omega), hx, hy]
  refine ⟨⟨h.ready, h.row, h.column, ⟨hrow, hcolumn⟩⟩, h.hidden, fun i hi => ?_, fun i hi => ?_⟩
  · refine (hdrawn i).trans ?_
    by_cases hcell : InCell t.row t.column i
    · rw [if_pos hcell, rendered_inCell hcell]
      simp only [Terminal.draw, and_self, if_true]
    · rw [if_neg hcell, h.text i hi]
      refine (rendered_congr (if_neg ?_)).symm
      rintro ⟨hr, hc⟩
      obtain ⟨⟨hleft, hright⟩, htop, hbottom⟩ := hi
      exact hcell ⟨⟨by omega, by omega⟩, by omega, by omega⟩
  · exact ((hdrawn i).trans (if_neg fun hcell => hi (h.inText hcell))).trans (h.frame i hi)

/-- A row of cells goes up… -/
theorem scroll_apply (s : Console) (i : ℕ) : s.scroll.framebuffer i =
    if InRect framebufferWidth 16 616 422 438 i then consoleBg
    else if InRect framebufferWidth 16 616 38 422 i then s.framebuffer (i + 16 * framebufferWidth)
    else s.framebuffer i := by
  have hmargin : consoleMarginX.toNat = 16 := rfl
  have hright : (consoleMarginX + consoleTextWidth).toNat = 616 := rfl
  have htop : consoleMarginY.toNat = 38 := rfl
  have hlast : (consoleMarginY + consoleTextHeight - consoleCellHeight).toNat = 422 := rfl
  have hwidth : consoleTextWidth.toNat = 600 := rfl
  have hheight : consoleCellHeight.toNat = 16 := rfl
  simp only [Console.scroll]
  rw [fillRect_inside (by omega) (by omega), hlast, hmargin, hwidth, hheight, hright, htop,
    sweep_apply (looksAhead_shift _) (by decide) (by decide)]

theorem below_mod (i : ℕ) :
    (i + 16 * framebufferWidth) % framebufferWidth = i % framebufferWidth :=
  Nat.add_mul_mod_self_right i 16 framebufferWidth

theorem below_div (i : ℕ) :
    (i + 16 * framebufferWidth) / framebufferWidth = i / framebufferWidth + 16 :=
  Nat.add_mul_div_right i 16 (by decide)

/-- **The pixels that scroll are those of the cells that scroll.** -/
theorem rendered_scrolled {grid : ℕ → ℕ → Byte} (hi : InText i) :
    rendered (fun r c => if r + 1 < 25 then grid (r + 1) c else 0x20) i =
      if InRect framebufferWidth 16 616 422 438 i then consoleBg
      else rendered grid (i + 16 * framebufferWidth) := by
  obtain ⟨⟨hleft, hright⟩, htop, hbottom⟩ := hi
  by_cases hlast : InRect framebufferWidth 16 616 422 438 i
  · have hrow : ¬ (i / framebufferWidth - 38) / 16 + 1 < 25 := by
      have hlow := hlast.2.1
      omega
    rw [if_pos hlast, rendered, if_neg]
    simp only [if_neg hrow]
    exact glyphPixel_space _ _
  · have hline : i / framebufferWidth < 422 := by
      by_contra hge
      exact hlast ⟨⟨hleft, hright⟩, Nat.not_lt.mp hge, hbottom⟩
    have hrow : (i / framebufferWidth - 38) / 16 + 1 < 25 := by omega
    rw [if_neg hlast, rendered, rendered, below_mod, below_div,
      show (i / framebufferWidth + 16 - 38) / 16 = (i / framebufferWidth - 38) / 16 + 1 by omega,
      show (i / framebufferWidth + 16 - 38) % 16 = (i / framebufferWidth - 38) % 16 by omega]
    simp only [if_pos hrow]

/-- **A new line**, below or after a scroll… -/
theorem Hidden.newline (h : Hidden frame t s) : Hidden frame (t.newline 25 0x20) s.newline := by
  have hrow := h.inGrid.row
  rw [Terminal.newline]
  by_cases hend : t.row + 1 < 25
  · have hlt : s.row.toNat < 24 := by
      rw [h.row]
      omega
    rw [if_pos hend, Console.newline_next hlt]
    refine ⟨⟨h.ready, ?_, rfl, ⟨hend, Nat.zero_lt_succ 49⟩⟩, h.hidden, h.text, h.frame⟩
    exact (Console.toNat_row_succ (Nat.lt_succ_of_lt hlt)).trans (congrArg (· + 1) h.row)
  · have heq : s.row.toNat = 24 := by
      rw [h.row]
      omega
    have hrow' : (consoleRows - 1).toNat = t.row := by
      rw [← h.row, heq]
      rfl
    rw [if_neg hend, Console.newline_last heq]
    refine ⟨⟨?_, hrow', ?_, ⟨hrow, Nat.zero_lt_succ 49⟩⟩, ?_, fun i hi => ?_, fun i hi => ?_⟩
    · simp only [Console.scroll_ready, h.ready]
    · simp only [Console.scroll_column]
      rfl
    · simp only [Console.scroll_cursorVisible, h.hidden]
    · simp only [scroll_apply]
      rw [rendered_scrolled hi]
      split
      · rfl
      · rename_i hlast
        obtain ⟨hcolumns, htop, hbottom⟩ := hi
        have hmoves : InRect framebufferWidth 16 616 38 422 i := by
          refine ⟨hcolumns, htop, ?_⟩
          by_contra hge
          exact hlast ⟨hcolumns, Nat.not_lt.mp hge, hbottom⟩
        rw [if_pos hmoves]
        refine h.text _ ?_
        rw [InText, InRect, below_mod, below_div]
        exact ⟨hcolumns, Nat.le_add_right_of_le htop, Nat.add_lt_add_right hmoves.2.2 16⟩
    · have hmoves : ¬ InRect framebufferWidth 16 616 38 422 i :=
        fun hin => hi ⟨hin.1, hin.2.1, Nat.lt_trans hin.2.2 (by decide)⟩
      have hblank : ¬ InRect framebufferWidth 16 616 422 438 i :=
        fun hin => hi ⟨hin.1, Nat.le_trans (by decide) hin.2.1, hin.2.2⟩
      simp only [scroll_apply, if_neg hmoves, if_neg hblank, h.frame i hi]

/-- …and so does going on. -/
theorem Hidden.advance (h : Hidden frame t s) : Hidden frame (t.advance 25 50 0x20) s.advance := by
  have hcolumns : consoleColumns.toNat = 50 := rfl
  have hcolumn := h.inGrid.column
  have hsucc : (s.column + 1).toNat = t.column + 1 := by
    rw [← h.column]
    refine BitVec.toNat_add_of_lt ?_
    rw [h.column]
    show t.column + 1 < _
    omega
  simp only [Console.advance, Terminal.advance]
  by_cases hend : t.column + 1 < 50
  · rw [if_pos hend, if_neg (by rw [BitVec.le_def, hcolumns, hsucc]; exact Nat.not_le.mpr hend)]
    exact ⟨⟨h.ready, h.row, hsucc, ⟨h.inGrid.row, hend⟩⟩, h.hidden, h.text, h.frame⟩
  · rw [if_neg hend, if_pos (by rw [BitVec.le_def, hcolumns, hsucc]; exact Nat.not_lt.mp hend)]
    exact h.newline

/-! ## Each character -/

/-- Before a character, the cursor may be hidden or shown. -/
def Follows (frame : Pixels) (t : Terminal Byte) (s : Console) : Prop :=
  Hidden frame t s ∨ Shown frame t s

theorem Follows.hideCursor (h : Follows frame t s) : Hidden frame t s.hideCursor := by
  rcases h with h | h
  · rwa [h.hideCursor]
  · exact h.hideCursor

theorem Follows.ready (h : Follows frame t s) : s.ready = true := by
  rcases h with h | h
  · exact h.ready
  · exact h.ready

theorem Follows.draw {c : Byte} (h : Follows frame t s) (hc : Console.Drawn c) :
    Shown frame (t.put 25 50 0x20 c) (s.putc c) := by
  have hhide := h.hideCursor
  rw [Console.putc_eq_draw h.ready hc hhide.consoleInGrid.column]
  exact (hhide.draw c).advance.showCursor

/-- **`framebuffer_console_putc` follows the rules of the terminal.** -/
theorem Follows.putc (h : Follows frame t s) (c : Byte) :
    Shown frame (typed t c) (s.putc c) := by
  have hhide := h.hideCursor
  rw [typed]
  by_cases hcr : c = 0x0d
  · rw [if_pos hcr, Console.putc, Console.putcBody, h.ready, if_neg (by decide), if_pos hcr]
    exact hhide.home.showCursor
  by_cases hlf : c = 0x0a
  · rw [if_neg hcr, if_pos hlf, Console.putc, Console.putcBody, h.ready, if_neg (by decide),
      if_neg hcr, if_pos hlf]
    exact hhide.newline.showCursor
  by_cases hbs : c = 0x08 ∨ c = 0x7f
  · rw [if_neg hcr, if_neg hlf, if_pos hbs, Console.putc, Console.putcBody, h.ready,
      if_neg (by decide), if_neg hcr, if_neg hlf, if_pos hbs]
    exact hhide.back.showCursor
  by_cases htab : c = 0x09
  · -- the first space finds the cursor hidden, the others find it shown
    have hspace : Console.Drawn 0x20 := Console.drawn_of_printable (by decide)
    have hfirst := Follows.draw (.inl hhide) hspace
    have hsecond := Follows.draw (.inr hfirst) hspace
    have hthird := Follows.draw (.inr hsecond) hspace
    have hspaces := Follows.draw (.inr hthird) hspace
    rw [if_neg hcr, if_neg hlf, if_neg hbs, if_pos htab, Console.putc_eq, Console.putcBody,
      h.ready, if_neg (by decide), if_neg hcr, if_neg hlf, if_neg hbs, if_pos htab]
    exact hspaces.toShowsText.showCursor hspaces.toAt
  · rw [if_neg hcr, if_neg hlf, if_neg hbs, if_neg htab]
    exact h.draw ⟨hcr, hlf, fun h => hbs (.inl h), fun h => hbs (.inr h), htab⟩

/-! ## From the start -/

/-- **The layout** leaves the text area blank. -/
theorem drawLayout_text (hready : s.ready = true) (hi : InText i) :
    s.drawLayout.framebuffer i = consoleBg := by
  obtain ⟨-, htop, hbottom⟩ := hi
  have habove : ∀ n, n ≤ 38 → n ≤ i / framebufferWidth := fun n hn => hn.trans htop
  have hbelow : ∀ n, 438 ≤ n → i / framebufferWidth < n := fun n hn => hbottom.trans_le hn
  have hscreen : InRect framebufferWidth 0 (0 + 640) 0 (0 + 480) i :=
    ⟨⟨Nat.zero_le _, Nat.mod_lt i (by decide)⟩, Nat.zero_le _, hbelow _ (by decide)⟩
  simp only [Console.drawLayout, Console.setStatus, hready, Bool.not_true, Bool.false_eq_true,
    if_false]
  rw [writeAt_rows (by decide) (by decide) (.inl (hbelow _ (by decide))),
    fillRect_rows (by decide) (.inl (hbelow _ (by decide))),
    fillRect_rows (by decide) (.inl (hbelow _ (by decide))),
    fillRect_rows (by decide) (.inl (hbelow _ (by decide))),
    writeAt_rows (by decide) (by decide) (.inr (habove _ (by decide))),
    writeAt_rows (by decide) (by decide) (.inr (habove _ (by decide))),
    writeAt_rows (by decide) (by decide) (.inr (habove _ (by decide))),
    fillRect_rows (by decide) (.inl (hbelow _ (by decide))),
    fillRect_rows (by decide) (.inl (hbelow _ (by decide))),
    fillRect_rows (by decide) (.inl (hbelow _ (by decide))),
    fillRect_rows (by decide) (.inr (habove _ (by decide))),
    fillRect_rows (by decide) (.inr (habove _ (by decide)))]
  exact (fillRect_inside (by decide) (by decide)).trans (if_pos hscreen)

/-- The terminal before anything is written. -/
def blankTerminal : Terminal Byte := ⟨fun _ _ => 0x20, 0, 0⟩

theorem init_shown (hready : s.ready = true) :
    Shown s.drawLayout.framebuffer blankTerminal s.init := by
  have hlayout : s.drawLayout.ready = true := by
    simp only [Console.drawLayout, Console.setStatus, hready, Bool.not_true, Bool.false_eq_true,
      if_false]
  have hhidden : Hidden s.drawLayout.framebuffer blankTerminal
      { s.drawLayout with column := 0, row := 0, cursorVisible := false } := by
    refine ⟨⟨hlayout, rfl, rfl, ⟨Nat.zero_lt_succ 24, Nat.zero_lt_succ 49⟩⟩, rfl,
      fun i hi => (drawLayout_text hready hi).trans ?_, fun _ _ => rfl⟩
    exact (if_neg (glyphPixel_space _ _)).symm
  rw [Console.init, hready]
  exact hhidden.showCursor

theorem write_shown (h : Shown frame t s) (text : List Byte) :
    Shown frame (text.foldl typed t) (s.write text) := by
  induction text generalizing t s with
  | nil => exact h
  | cons c text ih => exact ih (Follows.putc (.inr h) c)

/-- What a console shows after it was initialised as `s` and the text was written. -/
structure Renders (s : Console) (text : List Byte) : Prop where
  column : (s.init.write text).column.toNat < 50
  row : (s.init.write text).row.toNat < 25
  /-- The text area shows the terminal… -/
  rendering : ShowsText s.init.framebuffer (text.foldl typed blankTerminal) (s.init.write text)
  cursor : At (text.foldl typed blankTerminal) (s.init.write text)
  /-- …all of it, with the cursor hidden… -/
  hidden : ∀ i, InText i → (s.init.write text).hideCursor.framebuffer i
    = rendered (text.foldl typed blankTerminal).grid i
  hiddenFrame : ∀ i, ¬ InText i →
    (s.init.write text).hideCursor.framebuffer i = s.init.framebuffer i
  /-- …and the cursor, shown again, spares it. -/
  shownAgain : ShowsText s.init.framebuffer (text.foldl typed blankTerminal)
    (s.init.write text).hideCursor.showCursor

/-- **The console renders a terminal**, whatever is written; without a framebuffer it does
nothing. -/
theorem console_renders (s : Console) (text : List Byte) :
    (s.ready = true → Renders s text) ∧ (s.ready = false → s.init.write text = s) := by
  constructor
  · intro hready
    have hinit := init_shown hready
    -- the frame is what is outside the text area, with the cursor shown or not
    have hframe : ∀ {t s'}, ShowsText s.drawLayout.framebuffer t s' →
        ShowsText s.init.framebuffer t s' :=
      fun h => ⟨h.text, fun i hi => (h.frame i hi).trans (hinit.frame i hi).symm⟩
    have hshown := write_shown hinit text
    have hhidden := hshown.hideCursor
    exact ⟨hshown.consoleInGrid.column, hshown.consoleInGrid.row, hframe hshown.toShowsText,
      hshown.toAt, hhidden.text,
      fun i hi => (hhidden.frame i hi).trans (hinit.frame i hi).symm,
      hframe hhidden.showCursor.toShowsText⟩
  · intro hready
    rw [Console.init, hready, if_pos (by decide), Console.write_not_ready hready]

end Pixels

end SaturnOS
