import Mathlib.Data.List.GetD
import SaturnOS.Machinery.Drafts
import SaturnOS.Shell.Editor

/-!
# Shell/Editing — the line, its draft and the terminal stay in step

    Draft ────edit────▸ Draft
      │                   │
    holds               holds        command_buffer = text, command_cursor = |before|,
      ▾                   ▾          and the terminal shows  saturn> text
    ShellLine ──key──▸ ShellLine

Each function of the editor is an edit of a draft, and what it prints makes the terminal show the
draft that it leaves: it prints from a column that it knows, over a text that it knows, and goes
back as far as it has printed.
-/

open Machinery

namespace SaturnOS

/-! ## The terminal -/

/-- A printed character, on the line of a terminal of unbounded width. -/
def feed (l : Strip Byte) (c : Byte) : Strip Byte :=
  if c = 0x0a then Strip.blank 0x20 else if c = 0x08 then l.back else l.put c

/-- The line that the terminal shows. -/
def ShellLine.screen (s : ShellLine) : Strip Byte := s.printed.foldl feed (Strip.blank 0x20)

def Printable (c : Byte) : Prop := 0x20#8 ≤ c ∧ c ≤ 0x7e#8

instance {c : Byte} : Decidable (Printable c) := inferInstanceAs (Decidable (_ ∧ _))

section Terminal

variable {l : Strip Byte} {s : ShellLine} {t u x b : List Byte} {c : Byte} {k n : ℕ}

theorem screen_print (s : ShellLine) (u : List Byte) :
    (s.print u).screen = u.foldl feed s.screen :=
  List.foldl_append

theorem feed_put (hc : Printable c) : feed l c = l.put c := by
  rw [feed, if_neg, if_neg]
  all_goals
    rintro rfl
    exact absurd hc (by decide)

theorem foldl_feed (hu : ∀ c ∈ u, Printable c) : u.foldl feed l = u.foldl Strip.put l := by
  induction u generalizing l with
  | nil => rfl
  | cons c u ih =>
    obtain ⟨hc, hu⟩ := List.forall_mem_cons.mp hu
    rw [List.foldl_cons, List.foldl_cons, feed_put hc, ih hu]

/-- **A text is printed** at the column where `x` is shown. -/
theorem shows_print (h : s.screen.Shows 0x20 (t ++ x) t.length) (hu : ∀ c ∈ u, Printable c) :
    (s.print u).screen.Shows 0x20 (t ++ (u ++ x.drop u.length)) (t.length + u.length) := by
  rw [screen_print, foldl_feed hu]
  exact h.puts u

theorem print_print (s : ShellLine) (u t : List Byte) :
    (s.print u).print t = s.print (u ++ t) := by
  simp only [ShellLine.print, List.append_assoc]

theorem print_nil (s : ShellLine) : s.print [] = s := by
  simp only [ShellLine.print, List.append_nil]

theorem moveLeft_eq (s : ShellLine) (n : ℕ) : s.moveLeft n = s.print (List.replicate n 0x08) := by
  induction n generalizing s with
  | zero => exact (print_nil s).symm
  | succ n ih =>
    rw [ShellLine.moveLeft, ih, print_print, List.replicate_succ, List.singleton_append]

/-- **The cursor is moved back.** -/
theorem shows_moveLeft (h : s.screen.Shows 0x20 t k) (n : ℕ) :
    (s.moveLeft n).screen.Shows 0x20 t (k - n) := by
  induction n generalizing s k with
  | zero => exact h
  | succ n ih =>
    have hback : (s.print [0x08]).screen.Shows 0x20 t (k - 1) := by
      rw [screen_print]
      exact h.back
    rw [ShellLine.moveLeft, Nat.add_comm, ← Nat.sub_sub]
    exact ih hback

/-- A loop that prints prints its characters, one after the other. -/
theorem foldl_print (f : ℕ → Byte) (l : List ℕ) (s : ShellLine) :
    l.foldl (fun t i => t.print [f i]) s = s.print (l.map f) := by
  induction l generalizing s with
  | nil => exact (print_nil s).symm
  | cons i l ih => rw [List.foldl_cons, ih, print_print, List.map_cons, List.singleton_append]

theorem printBuffer_eq (s : ShellLine) (first : ℕ) : s.printBuffer first
    = s.print (cells s.commandBuffer first (s.commandLength - first)) := by
  refine (foldl_print s.commandBuffer _ s).trans ?_
  rw [List.range'_eq_map_range, List.map_map]
  rfl

/-- `kprintf(" ")`, so many times. -/
theorem printBlanks_eq (s : ShellLine) (n : ℕ) :
    countUp 0 n (fun _ t => ShellLine.print t [0x20]) s = s.print (List.replicate n 0x20) := by
  refine (foldl_print (fun _ => 0x20) _ s).trans ?_
  rw [List.map_const', List.length_range', Nat.sub_zero]

end Terminal

/-! ## The line holds a draft -/

/-- **The buffer holds the draft**: its text, printable and ended by a NUL, and its cursor. -/
structure BufferHolds (s : ShellLine) (d : Draft Byte) : Prop where
  length : s.commandLength = d.text.length
  cursor : s.commandCursor = d.before.length
  short : d.text.length ≤ 63
  spells : Spells s.commandBuffer 0 d.text
  printable : ∀ c ∈ d.text, Printable c

/-- **…and the terminal shows it**, after the prompt. -/
structure LineHolds (s : ShellLine) (d : Draft Byte) : Prop extends BufferHolds s d where
  screen : s.screen.Shows 0x20 (shellPromptText ++ d.text)
    (shellPromptText.length + d.before.length)

section Drawing

variable {s : ShellLine} {d : Draft Byte} {t u x a b : List Byte} {c : Byte} {n : ℕ}

theorem BufferHolds.after_length (h : BufferHolds s d) :
    s.commandLength - s.commandCursor = d.after.length := by
  rw [h.length, h.cursor, Draft.text, List.length_append, Nat.add_sub_cancel_left]

/-- The characters after the cursor. -/
theorem BufferHolds.cells (h : BufferHolds s d) :
    cells s.commandBuffer s.commandCursor (s.commandLength - s.commandCursor) = d.after := by
  have hafter := (spells_iff.mp h.spells.drop).2.1
  rw [h.after_length, h.cursor]
  refine cells_eq rfl fun i hi => ?_
  rw [List.getElem?_eq_getElem hi, ← hafter i hi, Nat.zero_add]

/-- The character at the cursor. -/
theorem BufferHolds.char (h : BufferHolds s ⟨b, c :: a⟩) : s.commandBuffer s.commandCursor = c := by
  have hchar := h.spells.drop.2.1
  rwa [Nat.zero_add, ← h.cursor] at hchar

/-- **Drawing**: what is after the cursor is printed over what is shown there, blanks after it if
there is more of that, and the cursor goes back. -/
theorem BufferHolds.draw (h : BufferHolds s d) (hx : x.length ≤ d.after.length + n)
    (hscreen : s.screen.Shows 0x20 (shellPromptText ++ d.before ++ x)
      (shellPromptText ++ d.before).length) :
    (((s.printBuffer s.commandCursor).print (List.replicate n 0x20)).moveLeft
      (s.commandLength - s.commandCursor + n)).screen.Shows 0x20 (shellPromptText ++ d.text)
      (shellPromptText.length + d.before.length) := by
  have hprintable : ∀ c ∈ d.after ++ List.replicate n 0x20, Printable c := by
    intro c hc
    rcases List.mem_append.mp hc with hc | hc
    · exact h.printable c (List.mem_append_right _ hc)
    · rw [List.eq_of_mem_replicate hc]
      decide
  have hlength : (d.after ++ List.replicate n (0x20 : Byte)).length = d.after.length + n := by
    rw [List.length_append, List.length_replicate]
  have hprinted := shows_moveLeft (shows_print hscreen hprintable) (d.after.length + n)
  rw [hlength, List.drop_eq_nil_of_le hx, List.append_nil, Nat.add_sub_cancel, ← List.append_assoc,
    Strip.shows_blanks, List.length_append] at hprinted
  rw [printBuffer_eq, h.cells, print_print, h.after_length, Draft.text, ← List.append_assoc]
  exact hprinted

/-- `shell_redraw_from_cursor` -/
theorem BufferHolds.redrawFromCursor (h : BufferHolds s d) {oldLength : ℕ}
    (hx : d.before.length + x.length ≤ oldLength)
    (hscreen : s.screen.Shows 0x20 (shellPromptText ++ d.before ++ x)
      (shellPromptText ++ d.before).length) : LineHolds (s.redrawFromCursor oldLength) d := by
  have hlength := h.length
  have hcursor := h.cursor
  have hdrawn := h.draw (n := oldLength - s.commandLength) (x := x) (by
    rw [hlength, Draft.text, List.length_append]
    omega) hscreen
  simp only [printBuffer_eq, moveLeft_eq] at hdrawn
  simp only [ShellLine.redrawFromCursor, printBuffer_eq, printBlanks_eq, moveLeft_eq]
  exact ⟨⟨h.length, h.cursor, h.short, h.spells, h.printable⟩, hdrawn⟩

/-- A line that is shown stays so when the same is printed where it stands. -/
theorem LineHolds.stale (h : LineHolds s d) :
    s.screen.Shows 0x20 (shellPromptText ++ d.before ++ d.after)
    (shellPromptText ++ d.before).length := by
  rw [List.append_assoc, List.length_append]
  exact h.screen

/-! ## Moving -/

/-- Another cursor in the same text. -/
theorem BufferHolds.move {d' : Draft Byte} {s' : ShellLine} (h : BufferHolds s d)
    (htext : d'.text = d.text) (hbuffer : s'.commandBuffer = s.commandBuffer)
    (hlength : s'.commandLength = s.commandLength)
    (hcursor : s'.commandCursor = d'.before.length) : BufferHolds s' d' := by
  refine ⟨?_, hcursor, ?_, ?_, ?_⟩
  · rw [hlength, h.length, htext]
  · rw [htext]
    exact h.short
  · rw [hbuffer, htext]
    exact h.spells
  · rw [htext]
    exact h.printable

theorem LineHolds.home (h : LineHolds s d) : LineHolds s.home d.home := by
  have hmove := shows_moveLeft h.screen d.before.length
  rw [ShellLine.home, h.cursor]
  rw [moveLeft_eq] at hmove ⊢
  refine ⟨⟨h.length, rfl, h.short, h.spells, h.printable⟩, ?_⟩
  rw [Nat.add_sub_cancel] at hmove
  exact hmove

theorem LineHolds.left (h : LineHolds s d) : LineHolds s.left d.left := by
  obtain ⟨before, after⟩ := d
  have hcursor := h.cursor
  rcases List.eq_nil_or_concat' before with rfl | ⟨b, c, rfl⟩
  · rw [ShellLine.left, if_neg (by rw [hcursor]; exact Nat.lt_irrefl 0)]
    exact h
  · have hleft : Draft.left ⟨b ++ [c], after⟩ = ⟨b, c :: after⟩ := by
      simp only [Draft.left, List.dropLast_concat, List.getLast?_concat, Option.toList_some,
        List.singleton_append]
    have htext : Draft.text ⟨b, c :: after⟩ = Draft.text ⟨b ++ [c], after⟩ :=
      (List.append_assoc b [c] after).symm
    have hback := shows_moveLeft h.screen 1
    simp only [List.length_append, List.length_singleton] at hcursor hback
    rw [hleft, ShellLine.left, if_pos (by rw [hcursor]; exact Nat.succ_pos _)]
    refine ⟨h.move htext rfl rfl (congrArg (· - 1) hcursor), ?_⟩
    rw [htext]
    exact hback

/-- **The cursor goes right** by printing what it goes over. -/
theorem LineHolds.moveRight (h : LineHolds s d) (n : ℕ) :
    LineHolds (s.moveRight n) ⟨d.before ++ d.after.take n, d.after.drop n⟩ := by
  induction n generalizing s d with
  | zero =>
    rw [List.take_zero, List.drop_zero, List.append_nil]
    exact h
  | succ n ih =>
    obtain ⟨b, after⟩ := d
    have hlength := h.after_length
    rw [ShellLine.moveRight]
    cases after with
    | nil =>
      rw [if_neg (by
        rw [List.length_nil] at hlength
        omega), List.take_nil, List.drop_nil, List.append_nil]
      exact h
    | cons c a =>
      have htext : Draft.text ⟨b ++ [c], a⟩ = Draft.text ⟨b, c :: a⟩ := List.append_assoc b [c] a
      have hprint := shows_print (u := [c]) h.stale (List.forall_mem_singleton.mpr
        (h.printable c (List.mem_append_right _ List.mem_cons_self)))
      rw [if_pos (by
        rw [List.length_cons] at hlength
        omega), h.char, List.take_succ_cons, List.drop_succ_cons]
      have hnext : LineHolds { s.print [c] with commandCursor := s.commandCursor + 1 }
          ⟨b ++ [c], a⟩ := by
        refine ⟨h.move htext rfl rfl ?_, ?_⟩
        · rw [List.length_append, h.cursor]
          rfl
        · show (s.print [c]).screen.Shows 0x20 (shellPromptText ++ (b ++ [c] ++ a))
            (shellPromptText.length + (b ++ [c]).length)
          have hcolumn : shellPromptText.length + (b ++ [c]).length
              = (shellPromptText ++ b).length + [c].length := by
            simp only [List.length_append, Nat.add_assoc]
          rw [List.append_assoc b, ← List.append_assoc, hcolumn]
          exact hprint
      have hrest := ih hnext
      rwa [List.append_assoc] at hrest

theorem LineHolds.right (h : LineHolds s d) : LineHolds (s.moveRight 1) d.right := by
  obtain ⟨b, after⟩ := d
  cases after with
  | nil => exact h.moveRight 1
  | cons c a => exact h.moveRight 1

theorem LineHolds.toEnd (h : LineHolds s d) : LineHolds s.toEnd d.toEnd := by
  have hend := h.moveRight d.after.length
  rw [List.take_length, List.drop_length] at hend
  rw [ShellLine.toEnd, h.after_length]
  exact hend

end Drawing

/-! ## Editing -/

section Editing

variable {s : ShellLine} {d : Draft Byte} {m : ℕ → Byte} {t u x a b : List Byte} {c : Byte}
  {lo hi n : ℕ}

theorem gapClosed (hle : lo ≤ hi) (j : ℕ) :
    countUp lo hi (fun i (m : ℕ → Byte) => Function.update m i (m (i + 1))) m j =
      if lo ≤ j ∧ j < hi then m (j + 1) else m j := by
  refine countUp_keeps (P := fun n (m' : ℕ → Byte) => ∀ j, m' j =
    if lo ≤ j ∧ j < n then m (j + 1) else m j) hle (fun j => ?_) (fun n m' hlo _ h j => ?_) j
  · rw [if_neg]
    omega
  · by_cases hj : j = n
    · rw [hj, Function.update_self, h, if_neg (by omega), if_pos (by omega)]
    · rw [Function.update_of_ne hj, h]
      refine if_congr ?_ rfl rfl
      omega

/-- **The character at the cursor is taken out**… -/
theorem BufferHolds.closeGap (h : BufferHolds s ⟨b, c :: a⟩) : BufferHolds s.closeGap ⟨b, a⟩ := by
  obtain ⟨hnul, hchars⟩ := spells_getD.mp h.spells
  have hlength := h.length
  have hcursor := h.cursor
  have hshort := h.short
  simp only [Draft.text, List.length_append, List.length_cons] at hlength hcursor hshort hchars
  have hsub : ∀ c', c' ∈ b ++ a → c' ∈ b ++ c :: a := fun c' hc' =>
    List.mem_append.mpr ((List.mem_append.mp hc').imp_right (List.mem_cons_of_mem c))
  refine ⟨?_, hcursor, ?_, spells_getD.mpr ⟨fun h0 => hnul (hsub 0 h0), fun i hi => ?_⟩,
    fun c' hc' => h.printable c' (hsub c' hc')⟩
  · show s.commandLength - 1 = (b ++ a).length
    rw [List.length_append]
    omega
  · show (b ++ a).length ≤ 63
    rw [List.length_append]
    omega
  · simp only [Draft.text, List.length_append] at hi
    show Function.update (countUp s.commandCursor (s.commandLength - 1) _ s.commandBuffer)
      (s.commandLength - 1) 0 i = (b ++ a).getD i 0
    by_cases hend : i = s.commandLength - 1
    · rw [hend, Function.update_self, List.getD_eq_default]
      rw [List.length_append]
      omega
    rw [Function.update_of_ne hend, gapClosed (by omega), hcursor]
    rcases Nat.lt_or_ge i b.length with hlt | hge
    · rw [if_neg (by omega), hchars i (by omega), List.getD_append _ _ _ _ hlt,
        List.getD_append _ _ _ _ hlt]
    · obtain ⟨j, rfl⟩ := Nat.exists_eq_add_of_le hge
      rw [if_pos (by omega), hchars _ (by omega), List.getD_append_right _ _ _ _ (by omega),
        List.getD_append_right _ _ _ _ (by omega), Nat.add_sub_cancel_left, Nat.add_assoc,
        Nat.add_sub_cancel_left, List.getD_cons_succ]

theorem shiftUp_apply (cursor n : ℕ) (m : ℕ → Byte) (j : ℕ) :
    ShellLine.shiftUp cursor n m j = if cursor < j ∧ j ≤ n then m (j - 1) else m j := by
  induction n generalizing m with
  | zero =>
    rw [if_neg (by omega)]
    rfl
  | succ n ih =>
    rw [ShellLine.shiftUp]
    by_cases hend : cursor < n + 1
    · rw [if_pos hend, ih]
      by_cases hj : j = n + 1
      · rw [hj, if_neg (by omega), if_pos ⟨hend, Nat.le_refl _⟩, Function.update_self]
        rfl
      · have hbelow : cursor < j ∧ j ≤ n → j - 1 ≠ n + 1 := by omega
        by_cases hin : cursor < j ∧ j ≤ n
        · rw [if_pos hin, if_pos (by omega), Function.update_of_ne (hbelow hin)]
        · rw [if_neg hin, if_neg (by omega), Function.update_of_ne hj]
    · rw [if_neg hend, if_neg (by omega)]

/-- …or put in. -/
theorem BufferHolds.insert (h : BufferHolds s ⟨b, a⟩) (hc : Printable c)
    (hroom : s.commandLength < 63) :
    BufferHolds { s with
      commandBuffer := Function.update (Function.update
        (ShellLine.shiftUp s.commandCursor s.commandLength s.commandBuffer) s.commandCursor c)
        (s.commandLength + 1) 0
      commandLength := s.commandLength + 1
      commandCursor := s.commandCursor + 1 } ⟨b ++ [c], a⟩ := by
  obtain ⟨hnul, hchars⟩ := spells_getD.mp h.spells
  have hlength := h.length
  have hcursor := h.cursor
  have htext : Draft.text ⟨b ++ [c], a⟩ = b ++ c :: a := List.append_assoc b [c] a
  have hprintable : ∀ c' ∈ b ++ c :: a, Printable c' := by
    intro c' hc'
    rcases List.mem_append.mp hc' with hb | hca
    · exact h.printable c' (List.mem_append_left _ hb)
    · rcases List.mem_cons.mp hca with rfl | ha
      · exact hc
      · exact h.printable c' (List.mem_append_right _ ha)
  simp only [Draft.text, List.length_append] at hlength hcursor hchars
  refine ⟨?_, ?_, ?_, ?_, ?_⟩
  · rw [htext, List.length_append, List.length_cons]
    show s.commandLength + 1 = _
    omega
  · rw [List.length_append]
    exact congrArg (· + 1) hcursor
  · rw [htext, List.length_append, List.length_cons]
    omega
  · rw [htext]
    refine spells_getD.mpr ⟨fun h0 => absurd (hprintable 0 h0) (by decide), fun i hi => ?_⟩
    rw [List.length_append, List.length_cons] at hi
    dsimp only
    by_cases hend : i = s.commandLength + 1
    · rw [hend, Function.update_self, List.getD_eq_default]
      rw [List.length_append, List.length_cons]
      omega
    rw [Function.update_of_ne hend]
    rcases Nat.lt_trichotomy i b.length with hlt | heq | hgt
    · rw [Function.update_of_ne (by omega), shiftUp_apply, if_neg (by omega), hchars i (by omega),
        List.getD_append _ _ _ _ hlt, List.getD_append _ _ _ _ hlt]
    · rw [heq, hcursor, Function.update_self, List.getD_append_right _ _ _ _ (Nat.le_refl _),
        Nat.sub_self, List.getD_cons_zero]
    · obtain ⟨j, rfl⟩ := Nat.exists_eq_add_of_lt hgt
      rw [Function.update_of_ne (by omega), shiftUp_apply, if_pos (by omega), Nat.add_sub_cancel,
        hchars _ (by omega), List.getD_append_right _ _ _ _ (by omega),
        List.getD_append_right _ _ _ _ (by omega), Nat.add_sub_cancel_left, Nat.add_assoc,
        Nat.add_sub_cancel_left, List.getD_cons_succ]
  · rw [htext]
    exact hprintable

theorem LineHolds.delete (h : LineHolds s d) : LineHolds s.delete d.delete := by
  obtain ⟨b, after⟩ := d
  have hlength := h.after_length
  rw [ShellLine.delete]
  cases after with
  | nil =>
    rw [if_pos (by
      rw [List.length_nil] at hlength
      omega)]
    exact h
  | cons c a =>
    rw [if_neg (by
      rw [List.length_cons] at hlength
      omega)]
    refine h.closeGap.redrawFromCursor (x := c :: a) ?_ h.stale
    rw [h.length, Draft.text, List.length_append]

/-- BACKSPACE is LEFT, and then DELETE. -/
theorem backspace_eq (hpos : 0 < s.commandCursor) (hle : s.commandCursor ≤ s.commandLength) :
    s.backspace = s.left.delete := by
  rw [ShellLine.backspace, if_neg (Nat.ne_of_gt hpos), ShellLine.left, if_pos hpos,
    ShellLine.delete, if_neg]
  · rfl
  · show ¬ s.commandLength ≤ s.commandCursor - 1
    omega

theorem LineHolds.backspace (h : LineHolds s d) : LineHolds s.backspace d.erase := by
  have hlength := h.length
  have hcursor := h.cursor
  rw [Draft.text, List.length_append] at hlength
  by_cases hzero : s.commandCursor = 0
  · have hnil : d.before = [] := List.eq_nil_of_length_eq_zero (hcursor.symm.trans hzero)
    rw [ShellLine.backspace, if_pos hzero, Draft.erase, hnil, List.dropLast_nil, ← hnil]
    exact h
  · have hdelete := h.left.delete
    rw [backspace_eq (Nat.pos_of_ne_zero hzero) (by omega)]
    obtain ⟨before, after⟩ := d
    rcases List.eq_nil_or_concat' before with rfl | ⟨b, c, rfl⟩
    · exact absurd hcursor hzero
    · simp only [Draft.left, Draft.delete, List.getLast?_concat, Option.toList_some,
        List.singleton_append, List.tail_cons] at hdelete
      exact hdelete

/-- A line is over: the next one is blank. -/
theorem screen_newline (s : ShellLine) (u : List Byte) :
    (s.print (u ++ [0x0a])).screen = Strip.blank 0x20 := by
  rw [screen_print, List.foldl_append]
  rfl

/-- **A fresh prompt.** -/
theorem clear_holds (h : s.screen = Strip.blank 0x20) : LineHolds s.clear.prompt ⟨[], []⟩ := by
  have hblank : s.clear.screen.Shows 0x20 ([] ++ []) ([] : List Byte).length := by
    rw [show s.clear.screen = s.screen from rfl, h]
    exact Strip.shows_blank 0x20
  have hprompt := shows_print (u := shellPromptText) hblank (by decide)
  rw [List.drop_nil, List.nil_append, List.length_nil, Nat.zero_add] at hprompt
  exact ⟨⟨rfl, rfl, Nat.zero_le _, Function.update_self 0 0 s.commandBuffer,
    List.forall_mem_nil _⟩, hprompt⟩

/-- The line with the character put in, before the rest of it is drawn again. -/
def ShellLine.inserted (s : ShellLine) (c : Byte) : ShellLine :=
  { s with
    commandBuffer := Function.update (Function.update
      (ShellLine.shiftUp s.commandCursor s.commandLength s.commandBuffer) s.commandCursor c)
      (s.commandLength + 1) 0
    commandLength := s.commandLength + 1
    commandCursor := s.commandCursor + 1 }.print [c]

theorem insertChar_room (hroom : s.commandLength < 63) : s.insertChar c =
    let t := if (s.inserted c).commandCursor < (s.inserted c).commandLength then
        ((s.inserted c).printBuffer (s.inserted c).commandCursor).moveLeft
          ((s.inserted c).commandLength - (s.inserted c).commandCursor)
      else s.inserted c
    { t with renderedLength := t.commandLength } := by
  rw [ShellLine.insertChar, if_neg]
  · rfl
  · exact Nat.not_le.mpr hroom

/-- **A character is put in**… -/
theorem LineHolds.insert (h : LineHolds s d) (hc : Printable c) (hroom : d.text.length < 63) :
    LineHolds (s.insertChar c) (d.insert c) := by
  obtain ⟨b, a⟩ := d
  have hlength := h.length
  have hkeeps : BufferHolds (s.inserted c) ⟨b ++ [c], a⟩ :=
    (h.toBufferHolds.insert hc (hlength ▸ hroom)).move rfl rfl rfl (h.toBufferHolds.insert hc
      (hlength ▸ hroom)).cursor
  have hprint : (s.inserted c).screen.Shows 0x20 (shellPromptText ++ (b ++ [c]) ++ a.tail)
      (shellPromptText ++ (b ++ [c])).length := by
    have hput := shows_print (u := [c]) h.stale (List.forall_mem_singleton.mpr hc)
    rw [← List.append_assoc, List.length_singleton, List.drop_one] at hput
    rw [← List.append_assoc, List.length_append]
    exact hput
  rw [insertChar_room (hlength ▸ hroom)]
  by_cases hend : (s.inserted c).commandCursor < (s.inserted c).commandLength
  · have hdrawn := hkeeps.draw (n := 0) (by
      rw [List.length_tail]
      exact Nat.sub_le _ 1) hprint
    rw [List.replicate_zero, print_nil, Nat.add_zero] at hdrawn
    rw [if_pos hend]
    rw [printBuffer_eq, moveLeft_eq] at hdrawn ⊢
    exact ⟨hkeeps.move rfl rfl rfl hkeeps.cursor, hdrawn⟩
  · have hnil : a = [] := by
      exact List.eq_nil_of_length_eq_zero
        (hkeeps.after_length.symm.trans (Nat.sub_eq_zero_of_le (Nat.not_lt.mp hend)))
    subst hnil
    rw [if_neg hend]
    refine ⟨hkeeps.move rfl rfl rfl hkeeps.cursor, ?_⟩
    rw [List.length_append] at hprint
    exact hprint

/-- …or the line, which is full, is given up. -/
theorem LineHolds.giveUp (h : LineHolds s d) (hfull : 63 ≤ d.text.length) :
    LineHolds (s.insertChar c) ⟨[], []⟩ := by
  rw [ShellLine.insertChar, if_pos (h.length ▸ hfull)]
  exact clear_holds (screen_newline s (ascii "\nCommand too long"))

/-- A text is put in at the end. -/
theorem LineHolds.insertText (h : LineHolds s ⟨t, []⟩) (hu : ∀ c ∈ u, Printable c)
    (hroom : t.length + u.length ≤ 63) : LineHolds (s.insertText u) ⟨t ++ u, []⟩ := by
  induction u generalizing s t with
  | nil =>
    rw [List.append_nil]
    exact h
  | cons c u ih =>
    obtain ⟨hc, hu⟩ := List.forall_mem_cons.mp hu
    rw [List.length_cons] at hroom
    have hshort : (Draft.text ⟨t, []⟩).length < 63 := by
      simp only [Draft.text, List.append_nil]
      omega
    have hroom' : (t ++ [c]).length + u.length ≤ 63 := by
      rw [List.length_append, List.length_singleton]
      omega
    have hrest := ih (h.insert hc hshort) hu hroom'
    rwa [List.append_assoc] at hrest

end Editing

/-! ## Replacing the line -/

section Replacing

variable {s : ShellLine} {d : Draft Byte} {m source : ℕ → Byte} {t u : List Byte} {i n : ℕ}

/-- The loop of `copy_string`, from where it is. -/
theorem copyLoop_apply (hsource : Spells source 0 t) (hi : i ≤ t.length) (hn : t.length ≤ i + n)
    (hdone : ∀ j, j < i → m j = source j) (j : ℕ) (hj : j ≤ t.length) :
    shellCopyLoop source n i m j = source j := by
  obtain ⟨hnul, hchars, hend⟩ := spells_iff.mp hsource
  rw [Nat.zero_add] at hend
  have hstop : ∀ m : ℕ → Byte, (∀ j, j < t.length → m j = source j) →
      Function.update m t.length 0 j = source j := by
    intro m hdone
    rcases Nat.lt_or_eq_of_le hj with hlt | rfl
    · rw [Function.update_of_ne (Nat.ne_of_lt hlt), hdone j hlt]
    · rw [Function.update_self, hend]
  induction n generalizing i m with
  | zero =>
    obtain rfl := Nat.le_antisymm hi hn
    exact hstop m hdone
  | succ n ih =>
    rw [shellCopyLoop]
    rcases Nat.lt_or_eq_of_le hi with hlt | rfl
    · have hchar : source i ≠ 0 := by
        rw [← Nat.zero_add i, hchars i hlt]
        exact fun h0 => hnul (h0 ▸ List.getElem_mem hlt)
      rw [if_pos hchar]
      refine ih hlt (by omega) fun j hj => ?_
      rcases Nat.lt_succ_iff_lt_or_eq.mp hj with hlt | rfl
      · rw [Function.update_of_ne (Nat.ne_of_lt hlt), hdone j hlt]
      · rw [Function.update_self]
    · rw [if_neg (not_not.mpr hend)]
      exact hstop m hdone

/-- **A string is copied.** -/
theorem spells_copyString (hsource : Spells source 0 t) (ht : t.length ≤ 63) :
    Spells (shellCopyString m source) 0 t := by
  refine Spells.congr (fun j hj => ?_) hsource
  rw [Nat.zero_add]
  exact copyLoop_apply hsource (Nat.zero_le _) (by
    rw [Nat.zero_add]
    exact ht) (fun j hj => absurd hj (Nat.not_lt_zero j)) j hj

theorem stringLength_eq (h : Spells m 0 t) (ht : t.length ≤ 63) :
    shellStringLength m = t.length := by
  have hle : t.length ≤ shellBufferSize := Nat.le_succ_of_le ht
  rw [shellStringLength, stringAt_eq h hle]

/-- **The line is replaced**, whatever it was. -/
theorem LineHolds.replaceLine (h : LineHolds s d) (hsource : Spells source 0 t) (ht : t.length ≤ 63)
    (hprintable : ∀ c ∈ t, Printable c) : LineHolds (s.replaceLine source) ⟨t, []⟩ := by
  have hhome := h.home
  have hcopy := spells_copyString (m := s.home.commandBuffer) hsource ht
  have hkeeps : BufferHolds { s.home with
      commandBuffer := shellCopyString s.home.commandBuffer source
      commandLength := shellStringLength (shellCopyString s.home.commandBuffer source)
      commandCursor := 0 } ⟨[], t⟩ :=
    ⟨stringLength_eq hcopy ht, rfl, ht, hcopy, hprintable⟩
  have hold : ([] : List Byte).length + d.text.length ≤ s.commandLength := by
    rw [h.length]
    exact Nat.le_of_eq (Nat.zero_add _)
  exact (hkeeps.redrawFromCursor hold hhome.stale).toEnd

end Replacing

/-! ## Completing -/

/-- The names that can be completed. -/
def shellNames : List (List Byte) := shellCommands ++ shellAliases

/-- A word at the end of the line that begins one name only becomes this name. -/
def complete (d : Draft Byte) : Draft Byte :=
  if 0x20 ∉ d.text ∧ d.after = [] then
    match shellNames.filter fun name => d.text.isPrefixOf name with
    | [name] => ⟨name, []⟩
    | _ => d
  else d

section Completing

variable {s : ShellLine} {d : Draft Byte} {name b : List Byte}

theorem shellNames_check : (shellNames.all fun name => decide (name.length ≤ 63) &&
    name.all fun c => decide (0x20#8 ≤ c) && decide (c ≤ 0x7e#8)) = true := by
  rfl

theorem shellNames_printable {name : List Byte} (h : name ∈ shellNames) :
    name.length ≤ 63 ∧ ∀ c ∈ name, Printable c := by
  have hname := List.all_eq_true.mp shellNames_check name h
  rw [Bool.and_eq_true, decide_eq_true_eq, List.all_eq_true] at hname
  refine ⟨hname.1, fun c hc => ?_⟩
  have hchar := hname.2 c hc
  rw [Bool.and_eq_true, decide_eq_true_eq, decide_eq_true_eq] at hchar
  exact hchar

theorem isCompletionTarget_iff (h : BufferHolds s d) :
    s.isCompletionTarget = true ↔ 0x20 ∉ d.text ∧ d.after = [] := by
  have hchars := (spells_iff.mp h.spells).2.1
  rw [ShellLine.isCompletionTarget, Bool.and_eq_true, List.all_eq_true, beq_iff_eq]
  refine and_congr ⟨fun hall hspace => ?_, fun hnone i hi => ?_⟩ ?_
  · obtain ⟨i, hi, hspace⟩ := List.getElem_of_mem hspace
    have hne := hall i (List.mem_range.mpr (h.length ▸ hi))
    rw [← Nat.zero_add i, hchars i hi, hspace] at hne
    exact absurd hne (by decide)
  · have hlt : i < d.text.length := h.length ▸ List.mem_range.mp hi
    rw [bne_iff_ne, ← Nat.zero_add i, hchars i hlt]
    exact fun heq => hnone (heq ▸ List.getElem_mem hlt)
  · rw [h.length, h.cursor, Draft.text, List.length_append, ← List.length_eq_zero_iff]
    omega

theorem matching_eq (h : BufferHolds s d) :
    s.matching = shellNames.filter fun name => d.text.isPrefixOf name := by
  refine List.filter_congr fun name _ => ?_
  obtain ⟨hnul, hchars, -⟩ := spells_iff.mp h.spells
  rw [Bool.eq_iff_iff, List.isPrefixOf_iff_prefix, ShellLine.prefixMatches, List.all_eq_true,
    h.length]
  constructor
  · intro hall
    have hchar : ∀ i (hi : i < d.text.length), name.getD i 0 = d.text[i] := by
      intro i hi
      rw [← hchars i hi, Nat.zero_add]
      exact beq_iff_eq.mp (hall i (List.mem_range.mpr hi))
    have hle : d.text.length ≤ name.length := by
      by_contra hlt
      have hend := hchar name.length (Nat.not_le.mp hlt)
      rw [List.getD_eq_default _ _ (Nat.le_refl _)] at hend
      exact hnul (hend ▸ List.getElem_mem _)
    refine List.prefix_iff_getElem.mpr ⟨hle, fun i hi => ?_⟩
    rw [← hchar i hi, List.getD_eq_getElem _ _ (Nat.lt_of_lt_of_le hi hle)]
  · rintro ⟨u, rfl⟩ i hi
    have hlt := List.mem_range.mp hi
    have hchar := hchars i hlt
    rw [Nat.zero_add] at hchar
    rw [beq_iff_eq, shellLiteral, List.getD_append _ _ _ _ hlt, List.getD_eq_getElem _ _ hlt, hchar]

/-- The names are listed. -/
theorem foldl_names (names : List (List Byte)) (s : ShellLine) :
    names.foldl (fun s name => s.print (ascii " " ++ name)) s
      = s.print (names.flatMap (ascii " " ++ ·)) := by
  induction names generalizing s with
  | nil => exact (print_nil s).symm
  | cons name names ih => rw [List.foldl_cons, ih, print_print, List.flatMap_cons]

/-- **The line is drawn again**, on a blank one. -/
theorem BufferHolds.redrawCurrentLine (h : BufferHolds s ⟨b, []⟩)
    (hscreen : s.screen = Strip.blank 0x20) :
    LineHolds s.redrawCurrentLine ⟨b, []⟩ := by
  have hlength := h.length
  have hchars := (spells_iff.mp h.spells).2.1
  rw [Draft.text, List.append_nil] at hlength
  have hcells : Machinery.cells s.commandBuffer 0 (s.commandLength - 0) = b := by
    refine cells_eq hlength.symm fun i hi => ?_
    have hlt : i < b.length := hlength ▸ hi
    have hlt' : i < (Draft.text ⟨b, []⟩).length := by
      rwa [Draft.text, List.append_nil]
    rw [hchars i hlt', List.getElem?_eq_getElem hlt]
    simp only [Draft.text, List.append_nil]
  have hprintable : ∀ c ∈ shellPromptText ++ b, Printable c := by
    intro c hc
    rcases List.mem_append.mp hc with hprompt | hb
    · exact (show ∀ c ∈ shellPromptText, Printable c by decide) c hprompt
    · exact h.printable c (List.mem_append_left _ hb)
  have hblank : s.screen.Shows 0x20 ([] ++ []) ([] : List Byte).length := by
    rw [hscreen]
    exact Strip.shows_blank 0x20
  have hprint := shows_print hblank hprintable
  rw [← print_print, List.drop_nil, List.append_nil, List.nil_append, List.length_nil,
    Nat.zero_add, List.length_append] at hprint
  have heq : s.redrawCurrentLine = { (s.print shellPromptText).print b with
      commandCursor := s.commandLength, renderedLength := s.commandLength } := by
    rw [ShellLine.redrawCurrentLine, printBuffer_eq, show Machinery.cells s.prompt.commandBuffer 0
      (s.prompt.commandLength - 0) = b from hcells]
    rfl
  rw [heq]
  refine ⟨⟨h.length, hlength, h.short, h.spells, h.printable⟩, ?_⟩
  rw [Draft.text, List.append_nil]
  exact hprint

/-- **Completing** puts the rest of the name in, or shows the names there are. -/
theorem LineHolds.autocomplete (h : LineHolds s d) : LineHolds s.autocomplete (complete d) := by
  rw [ShellLine.autocomplete, complete, matching_eq h.toBufferHolds]
  by_cases htarget : 0x20 ∉ d.text ∧ d.after = []
  · rw [if_pos htarget, (isCompletionTarget_iff h.toBufferHolds).mpr htarget, if_neg (by decide)]
    obtain ⟨b, a⟩ := d
    obtain ⟨-, rfl⟩ : _ ∧ a = [] := htarget
    have htext : Draft.text ⟨b, []⟩ = b := List.append_nil b
    rw [htext]
    match hnames : shellNames.filter fun name => b.isPrefixOf name with
    | [] => exact h
    | [name] =>
      obtain ⟨hname, hprefix⟩ := List.mem_filter.mp (hnames ▸ List.mem_singleton_self name)
      obtain ⟨hlength, hprintable⟩ := shellNames_printable hname
      obtain ⟨u, rfl⟩ := List.isPrefixOf_iff_prefix.mp hprefix
      rw [List.length_append] at hlength
      have hinsert := h.insertText (fun c hc => hprintable c (List.mem_append_right _ hc)) hlength
      show LineHolds (s.insertText ((b ++ u).drop s.commandLength)) ⟨b ++ u, []⟩
      rw [h.length, htext, List.drop_left]
      exact hinsert
    | name :: name' :: names =>
      show LineHolds (((name :: name' :: names).foldl (fun s name => s.print (ascii " " ++ name))
        (s.print (ascii "\nMatches:"))).print (ascii "\n")).redrawCurrentLine ⟨b, []⟩
      rw [foldl_names, print_print, print_print, ← List.append_assoc]
      refine BufferHolds.redrawCurrentLine ?_ (screen_newline s _)
      exact ⟨h.length, h.cursor, h.short, h.spells, h.printable⟩
  · rw [if_neg htarget, Bool.eq_false_iff.mpr fun h' =>
      htarget ((isCompletionTarget_iff h.toBufferHolds).mp h'), if_pos (by decide)]
    exact h

end Completing

end SaturnOS
