import SaturnOS.Shell.Editing

/-!
# Shell/Session — what is typed, from one prompt to the next

    saturn> │ c₁ c₂ ⋯ cₙ │ '\n' ──▸ saturn> │ ⋯
            └ a session: a draft, a place in the history, an escape sequence begun

The characters are keys, some of them spelled by escape sequences, and the keys are edits of a
draft.  From a fresh prompt on, whatever is typed, the buffer holds the draft and the terminal
shows it (`editor_in_step`); so the lines that are entered are strings, and the history, from which
later lines are taken, is one of strings.
-/

open Machinery

namespace SaturnOS

/-! ## Sessions -/

/-- How much of an escape sequence has been typed: nothing, `ESC`, `ESC [`, `ESC [ 3`. -/
inductive Escape
  | none
  | begun
  | bracket
  | three

def Escape.code : Escape → ℕ
  | none => 0
  | begun => 1
  | bracket => 2
  | three => 3

inductive Key
  | insert (c : Byte)
  | erase
  | delete
  | left
  | right
  | home
  | toEnd
  | previous
  | next
  | complete
  | ignored

/-- The key that a character is by itself… -/
def plainKey (c : Byte) : Key :=
  if c = 0x01 then .home
  else if c = 0x02 then .left
  else if c = 0x03 then .previous
  else if c = 0x04 then .delete
  else if c = 0x05 then .toEnd
  else if c = 0x0e then .next
  else if c = 0x06 then .right
  else if c = 0x09 then .complete
  else if c = 0x08 ∨ c = 0x7f then .erase
  else if c < 0x20#8 ∨ 0x7e#8 < c then .ignored
  else .insert c

/-- …and after `ESC [`. -/
def bracketKey (c : Byte) : Key :=
  if c = 0x44 then .left
  else if c = 0x41 then .previous
  else if c = 0x42 then .next
  else if c = 0x43 then .right
  else if c = 0x48 then .home
  else if c = 0x46 then .toEnd
  else .ignored

/-- A character is a key, or part of the escape sequence of one. -/
def readKey : Escape → Byte → Escape × Key
  | .none, c => if c = 0x1b then (.begun, .ignored) else (.none, plainKey c)
  | .begun, c => (if c = 0x5b then .bracket else .none, .ignored)
  | .bracket, c => if c = 0x33 then (.three, .ignored) else (.none, bracketKey c)
  | .three, c => (.none, if c = 0x7e then .delete else .ignored)

/-- A draft, and where in the history it was found. -/
structure Session where
  draft : Draft Byte
  view : ℕ
  escape : Escape

namespace Session

def fresh (history : List (List Byte)) : Session := ⟨⟨[], []⟩, history.length, .none⟩

/-- A key is an edit; the lines of the history are taken whole. -/
def press (history : List (List Byte)) (a : Session) : Key → Session
  | .insert c =>
    { a with
      draft := if 63 ≤ a.draft.text.length then ⟨[], []⟩ else a.draft.insert c
      view := history.length }
  | .erase => { a with draft := a.draft.erase }
  | .delete => { a with draft := a.draft.delete }
  | .left => { a with draft := a.draft.left }
  | .right => { a with draft := a.draft.right }
  | .home => { a with draft := a.draft.home }
  | .toEnd => { a with draft := a.draft.toEnd }
  | .previous =>
    if a.view = 0 then a
    else { a with draft := ⟨history.getD (a.view - 1) [], []⟩, view := a.view - 1 }
  | .next =>
    if history.length ≤ a.view then a
    else { a with draft := ⟨history.getD (a.view + 1) [], []⟩, view := a.view + 1 }
  | .complete => { a with draft := complete a.draft }
  | .ignored => a

def type (history : List (List Byte)) (a : Session) (c : Byte) : Session :=
  let (escape, key) := readKey a.escape c
  { a.press history key with escape := escape }

end Session

/-! ## The history -/

/-- The buffer spells a line. -/
structure SpellsLine (m : ℕ → Byte) (t : List Byte) : Prop where
  spells : Spells m 0 t
  short : t.length ≤ 63
  printable : ∀ c ∈ t, Printable c

/-- **The history is one of lines**; it fills its buffers in their order. -/
structure HistoryOk (h : ShellHistory) : Prop where
  count : h.historyCount ≤ shellHistorySize
  next : h.historyNext < shellHistorySize
  filling : h.historyCount < shellHistorySize → h.historyNext = h.historyCount
  entries : ∀ j, j < h.historyCount → ∃ t, SpellsLine (h.historyBuffer j) t

/-- The lines, the oldest one first. -/
def ShellHistory.texts (h : ShellHistory) : List (List Byte) :=
  (List.range h.historyCount).map fun i => stringAt (h.entry i) 0 shellBufferSize

section History

variable {h : ShellHistory} {command : ℕ → Byte} {t : List Byte} {i : ℕ}

theorem SpellsLine.stringAt (hline : SpellsLine command t) :
    stringAt command 0 shellBufferSize = t := by
  have hle : t.length ≤ shellBufferSize := Nat.le_succ_of_le hline.short
  exact stringAt_eq hline.spells hle

theorem length_texts (h : ShellHistory) : h.texts.length = h.historyCount := by
  rw [ShellHistory.texts, List.length_map, List.length_range]

/-- No buffer is read that was not written. -/
theorem index_lt (hi : i < h.historyCount) : h.index i < h.historyCount := by
  rw [ShellHistory.index]
  split
  · exact hi
  · exact Nat.lt_of_lt_of_le (Nat.mod_lt _ (by decide)) (Nat.not_lt.mp ‹_›)

theorem HistoryOk.entry (hok : HistoryOk h) (hi : i < h.historyCount) :
    SpellsLine (h.entry i) (h.texts.getD i []) := by
  obtain ⟨t, ht⟩ := hok.entries _ (index_lt hi)
  have htext : h.texts.getD i [] = t := by
    rw [List.getD_eq_getElem _ _ (by rwa [length_texts])]
    simp only [ShellHistory.texts, List.getElem_map, List.getElem_range]
    exact ht.stringAt
  rw [htext]
  exact ht

theorem HistoryOk.viewed (hok : HistoryOk h) (view : ℕ) :
    HistoryOk { h with historyView := view } :=
  ⟨hok.count, hok.next, hok.filling, hok.entries⟩

/-- **A line is added.** -/
theorem HistoryOk.add (hok : HistoryOk h) (hline : SpellsLine command t) :
    HistoryOk (h.add command) := by
  rw [ShellHistory.add]
  split
  · exact hok
  split
  · exact hok.viewed _
  have hcount := hok.count
  have hnext := hok.next
  have hfilling := hok.filling
  have hcopy : SpellsLine (shellCopyString (h.historyBuffer h.historyNext) command) t :=
    ⟨spells_copyString hline.spells hline.short, hline.short, hline.printable⟩
  -- the buffers that are used are those used before, and the one written
  have hentries : ∀ j, j = h.historyNext ∨ j < h.historyCount → ∃ t, SpellsLine
      (Function.update h.historyBuffer h.historyNext
        (shellCopyString (h.historyBuffer h.historyNext) command) j) t := by
    intro j hj
    by_cases heq : j = h.historyNext
    · rw [heq, Function.update_self]
      exact ⟨t, hcopy⟩
    · rw [Function.update_of_ne heq]
      exact hok.entries j (hj.resolve_left heq)
  have hlast : (h.historyNext + 1) % shellHistorySize < shellHistorySize :=
    Nat.mod_lt _ (by decide)
  dsimp only
  by_cases hroom : h.historyCount < shellHistorySize
  · have heq := hfilling hroom
    rw [if_pos hroom]
    refine ⟨hroom, hlast, fun hlt => ?_, fun j hj => hentries j ?_⟩
    · rw [heq]
      exact Nat.mod_eq_of_lt hlt
    · rw [heq]
      exact (Nat.lt_succ_iff_lt_or_eq.mp hj).symm
  · rw [if_neg hroom]
    exact ⟨hcount, hlast, fun hlt => absurd hlt hroom, fun j hj => hentries j (.inr hj)⟩

end History

/-! ## In step -/

/-- The shell is where the session is. -/
structure InStep (history : List (List Byte)) (s : Shell) (a : Session) : Prop where
  line : LineHolds s.line a.draft
  escape : s.escapeState = a.escape.code
  view : s.history.historyView = a.view
  view_le : a.view ≤ s.history.historyCount
  historyOk : HistoryOk s.history
  texts : s.history.texts = history

section Steps

variable {history : List (List Byte)} {s : Shell} {a : Session} {c : Byte}

theorem InStep.length (h : InStep history s a) : history.length = s.history.historyCount := by
  rw [← h.texts, length_texts]

/-- **An edit of the line** leaves the rest. -/
theorem InStep.edit (h : InStep history s a) {f : ShellLine → ShellLine} {d : Draft Byte}
    (hline : LineHolds (f s.line) d) : InStep history (s.edit f) { a with draft := d } :=
  ⟨hline, h.escape, h.view, h.view_le, h.historyOk, h.texts⟩

/-- **A line of the history** replaces the draft. -/
theorem InStep.recall (h : InStep history s a) {view : ℕ} {source : ℕ → Byte}
    (hview : view ≤ s.history.historyCount) (hsource : SpellsLine source (history.getD view [])) :
    InStep history
      { s with
        history := { s.history with historyView := view }
        line := s.line.replaceLine source }
      { a with draft := ⟨history.getD view [], []⟩, view := view } := by
  refine ⟨?_, h.escape, rfl, hview, h.historyOk.viewed view, h.texts⟩
  dsimp only
  exact h.line.replaceLine hsource.spells hsource.short hsource.printable

theorem InStep.entry (h : InStep history s a) {view : ℕ} (hview : view < s.history.historyCount) :
    SpellsLine (s.history.entry view) (history.getD view []) := by
  rw [← h.texts]
  exact h.historyOk.entry hview

theorem InStep.previous (h : InStep history s a) :
    InStep history s.historyPrevious (a.press history .previous) := by
  have hle := h.view_le
  rw [Shell.historyPrevious, Session.press, h.view]
  by_cases hzero : a.view = 0
  · rw [if_pos hzero, if_pos hzero]
    split
    · exact h
    · exact h
  · rw [if_neg (by omega), if_neg hzero, if_neg hzero]
    exact h.recall (by omega) (h.entry (by omega))

theorem InStep.next (h : InStep history s a) :
    InStep history s.historyNext (a.press history .next) := by
  have hle := h.view_le
  have hlength := h.length
  rw [Shell.historyNext, Session.press, h.view, hlength]
  by_cases hend : s.history.historyCount ≤ a.view
  · rw [if_pos (.inr hend), if_pos hend]
    exact h
  · rw [if_neg (by omega), if_neg hend]
    refine h.recall (by omega) ?_
    split
    · rename_i hlast
      rw [List.getD_eq_default _ _ (by omega)]
      exact ⟨rfl, Nat.zero_le _, List.forall_mem_nil _⟩
    · exact h.entry (by omega)

/-- What the shell does for a key. -/
def Shell.press (s : Shell) : Key → Shell
  | .insert c =>
    { s with
      history := { s.history with historyView := s.history.historyCount }
      line := s.line.insertChar c }
  | .erase => s.edit .backspace
  | .delete => s.edit .delete
  | .left => s.edit .left
  | .right => s.edit (·.moveRight 1)
  | .home => s.edit .home
  | .toEnd => s.edit .toEnd
  | .previous => s.historyPrevious
  | .next => s.historyNext
  | .complete => s.edit .autocomplete
  | .ignored => s

/-- **A key is pressed**: one case for each. -/
theorem InStep.press (h : InStep history s a) {key : Key}
    (hkey : ∀ c, key = .insert c → Printable c) :
    InStep history (s.press key) (a.press history key) := by
  cases key with
  | insert c =>
    refine ⟨?_, h.escape, h.length.symm, Nat.le_of_eq h.length, h.historyOk.viewed _, h.texts⟩
    show LineHolds (s.line.insertChar c) (if 63 ≤ a.draft.text.length then ⟨[], []⟩
      else a.draft.insert c)
    split
    · exact h.line.giveUp ‹_›
    · exact h.line.insert (hkey c rfl) (Nat.not_le.mp ‹_›)
  | erase => exact h.edit h.line.backspace
  | delete => exact h.edit h.line.delete
  | left => exact h.edit h.line.left
  | right => exact h.edit h.line.right
  | home => exact h.edit h.line.home
  | toEnd => exact h.edit h.line.toEnd
  | previous => exact h.previous
  | next => exact h.next
  | complete => exact h.edit h.line.autocomplete
  | ignored => exact h

/-- A choice that comes to a key that its first branch is not. -/
theorem ite_key {p : Prop} [Decidable p] {k k' key : Key} (h : (if p then k else k') = key)
    (hk : k ≠ key) : ¬ p ∧ k' = key := by
  by_cases hp : p
  · exact absurd ((if_pos hp).symm.trans h) hk
  · exact ⟨hp, (if_neg hp).symm.trans h⟩

theorem plainKey_insert {c' : Byte} (h : plainKey c = .insert c') : Printable c' := by
  rw [plainKey] at h
  iterate 9 replace h := (ite_key h Key.noConfusion).2
  obtain ⟨hrange, h⟩ := ite_key h Key.noConfusion
  obtain ⟨hlow, hhigh⟩ := not_or.mp hrange
  exact Key.insert.inj h ▸ ⟨BitVec.not_lt.mp hlow, BitVec.not_lt.mp hhigh⟩

theorem bracketKey_ne_insert (c c' : Byte) : bracketKey c ≠ .insert c' := by
  intro h
  rw [bracketKey] at h
  iterate 6 replace h := (ite_key h Key.noConfusion).2
  exact nomatch h

/-- Only printable characters are put in. -/
theorem readKey_insert {escape : Escape} {c' : Byte} (h : (readKey escape c).2 = .insert c') :
    Printable c' := by
  cases escape with
  | none =>
    rw [readKey, apply_ite Prod.snd] at h
    exact plainKey_insert (ite_key h Key.noConfusion).2
  | begun => exact nomatch h
  | bracket =>
    rw [readKey, apply_ite Prod.snd] at h
    exact absurd (ite_key h Key.noConfusion).2 (bracketKey_ne_insert c c')
  | three => exact nomatch (ite_key h Key.noConfusion).2

theorem handleChar_plain (hc : c ≠ 0x0a ∧ c ≠ 0x0d) (hescape : c ≠ 0x1b)
    (hnone : s.escapeState = 0) : s.handleChar c = s.press (plainKey c) := by
  rw [Shell.handleChar, if_neg hc.2, if_neg (not_not.mpr hnone), if_neg hescape, plainKey]
  simp only [apply_ite s.press, if_neg hc.1]
  rfl

/-- **`shell_handle_char` reads keys**, but for the ends of lines. -/
theorem handleChar_eq {escape : Escape} (hescape : s.escapeState = escape.code)
    (hc : c ≠ 0x0a ∧ c ≠ 0x0d) : s.handleChar c =
      { s with escapeState := (readKey escape c).1.code }.press (readKey escape c).2 := by
  cases escape with
  | none =>
    have hzero : s.escapeState = 0 := hescape
    by_cases hesc : c = 0x1b
    · subst hesc
      rw [Shell.handleChar, if_neg hc.2, if_neg (not_not.mpr hzero), if_pos rfl]
      rfl
    · have hread : readKey .none c = (.none, plainKey c) := if_neg hesc
      have hsame : { s with escapeState := Escape.none.code } = s := by rw [← hescape]
      rw [hread, hsame]
      exact handleChar_plain hc hesc hescape
  | begun =>
    have hone : s.escapeState = 1 := hescape
    rw [Shell.handleChar, if_neg hc.2, readKey, if_pos (by rw [hone]; decide),
      Shell.handleEscapeChar, if_pos hone]
    by_cases hbracket : c = 0x5b
    · rw [if_pos hbracket, if_pos hbracket]
      rfl
    · rw [if_neg hbracket, if_neg hbracket]
      rfl
  | bracket =>
    have htwo : s.escapeState = 2 := hescape
    rw [Shell.handleChar, if_neg hc.2, readKey, if_pos (by rw [htwo]; decide),
      Shell.handleEscapeChar, if_neg (by rw [htwo]; decide), if_pos htwo]
    by_cases hthree : c = 0x33
    · subst hthree
      rfl
    · rw [if_neg hthree, bracketKey]
      simp only [apply_ite (Shell.press _), if_neg hthree]
      rfl
  | three =>
    have hthree : s.escapeState = 3 := hescape
    rw [Shell.handleChar, if_neg hc.2, readKey, if_pos (by rw [hthree]; decide),
      Shell.handleEscapeChar, if_neg (by rw [hthree]; decide), if_neg (by rw [hthree]; decide)]
    by_cases hdelete : c = 0x7e
    · rw [if_pos hdelete, if_pos hdelete]
      rfl
    · rw [if_neg hdelete, if_neg hdelete]
      rfl

/-- A key leaves the escape sequence alone. -/
theorem press_escape (a : Session) (escape : Escape) (key : Key) :
    ({ a with escape := escape } : Session).press history key
      = { a.press history key with escape := escape } := by
  cases key with
  | previous =>
    simp only [Session.press]
    split
    · rfl
    · rfl
  | next =>
    simp only [Session.press]
    split
    · rfl
    · rfl
  | _ => rfl

/-- **A character is typed.** -/
theorem InStep.handleChar (h : InStep history s a) (hc : c ≠ 0x0a ∧ c ≠ 0x0d) :
    InStep history (s.handleChar c) (a.type history c) := by
  have hread : InStep history { s with escapeState := (readKey a.escape c).1.code }
      { a with escape := (readKey a.escape c).1 } :=
    ⟨h.line, rfl, h.view, h.view_le, h.historyOk, h.texts⟩
  have hpress := hread.press fun c' (hkey : (readKey a.escape c).2 = .insert c') =>
    readKey_insert hkey
  rw [handleChar_eq h.escape hc]
  rw [press_escape] at hpress
  exact hpress

end Steps

/-! ## From prompt to prompt -/

/-- The statics before the shell runs. -/
def bootShell : Shell := ⟨⟨fun _ => 0, 0, 0, 0, []⟩, ⟨fun _ _ => 0, 0, 0, 0⟩, 0⟩

/-- Neither `'\n'` nor `'\r'`. -/
def OneLine (text : List Byte) : Prop := ∀ c ∈ text, c ≠ 0x0a ∧ c ≠ 0x0d

instance {text : List Byte} : Decidable (OneLine text) :=
  inferInstanceAs (Decidable (∀ c ∈ text, _))

/-- **A fresh prompt**: that of `shell_init`, and the one after a line is entered. -/
inductive FreshPrompt : Shell → Prop
  | boot : FreshPrompt bootShell.init
  | enter {s : Shell} (text : List Byte) :
    FreshPrompt s → FreshPrompt (text.foldl Shell.handleChar s).enter

section Sessions

variable {history : List (List Byte)} {s : Shell} {a : Session} {text : List Byte} {c : Byte}

/-- **Characters are typed.** -/
theorem InStep.typed (h : InStep history s a) (htext : OneLine text) :
    InStep history (text.foldl Shell.handleChar s) (text.foldl (Session.type history) a) := by
  induction text generalizing s a with
  | nil => exact h
  | cons c text ih =>
    obtain ⟨hc, htext⟩ := List.forall_mem_cons.mp htext
    exact ih (h.handleChar hc) htext

/-- **The line that is entered** is the draft: its zero is there already. -/
theorem InStep.commandLine (h : InStep history s a) :
    SpellsLine (Function.update s.line.commandBuffer s.line.commandLength 0) a.draft.text := by
  have hend : s.line.commandBuffer s.line.commandLength = 0 := by
    have hspells := (spells_iff.mp h.line.spells).2.2
    rwa [Nat.zero_add, ← h.line.length] at hspells
  rw [← hend, Function.update_eq_self]
  exact ⟨h.line.spells, h.line.short, h.line.printable⟩

/-- It is added to the history. -/
theorem InStep.enter (h : InStep history s a) :
    InStep s.enter.history.texts s.enter (Session.fresh s.enter.history.texts) := by
  have hadd := h.historyOk.add h.commandLine
  have hview : s.enter.history.historyCount = s.enter.history.texts.length := (length_texts _).symm
  refine ⟨?_, rfl, hview, Nat.le_of_eq hview.symm, hadd.viewed _, rfl⟩
  dsimp only [Shell.enter, Session.fresh]
  exact clear_holds rfl

/-- The end of a line enters it, but in an escape sequence, which it ends. -/
theorem handleChar_newline (hc : ¬(c ≠ 0x0a ∧ c ≠ 0x0d)) : s.handleChar c =
    if s.escapeState = 0 then s.enter else { s with escapeState := 0 } := by
  have hnewline : (if c = 0x0d then 0x0a else c) = 0x0a := by
    split
    · rfl
    · exact not_not.mp fun hne => hc ⟨hne, ‹_›⟩
  have hkey : s.escapeState ≠ 0 → s.handleEscapeChar 0x0a = { s with escapeState := 0 } := by
    intro _
    rw [Shell.handleEscapeChar]
    split
    · rfl
    split
    · rfl
    · rfl
  rw [Shell.handleChar, hnewline]
  by_cases hnone : s.escapeState = 0
  · rw [if_neg (not_not.mpr hnone), if_pos hnone]
    rfl
  · rw [if_pos hnone, if_neg hnone, hkey hnone]

/-- Whatever is typed, there is a session. -/
theorem InStep.any (h : InStep s.history.texts s a) (text : List Byte) :
    ∃ b, InStep (text.foldl Shell.handleChar s).history.texts (text.foldl Shell.handleChar s)
      b := by
  induction text generalizing s a with
  | nil => exact ⟨a, h⟩
  | cons c text ih =>
    rw [List.foldl_cons]
    by_cases hc : c ≠ 0x0a ∧ c ≠ 0x0d
    · have hstep := h.handleChar hc
      rw [← hstep.texts] at hstep
      exact ih hstep
    rw [handleChar_newline hc]
    split
    · exact ih h.enter
    · have hstep : InStep s.history.texts { s with escapeState := 0 } { a with escape := .none } :=
        ⟨h.line, rfl, h.view, h.view_le, h.historyOk, h.texts⟩
      exact ih hstep

/-- **A fresh prompt is that of an empty draft.** -/
theorem FreshPrompt.inStep (h : FreshPrompt s) :
    InStep s.history.texts s (Session.fresh s.history.texts) := by
  induction h with
  | boot =>
    have hempty : HistoryOk bootShell.init.history :=
      ⟨Nat.zero_le _, by decide, fun _ => rfl, fun j hj => absurd hj (Nat.not_lt_zero j)⟩
    exact ⟨clear_holds rfl, rfl, rfl, Nat.le_refl _, hempty, rfl⟩
  | enter text _ ih =>
    obtain ⟨a, h⟩ := ih.any text
    exact h.enter

/-- **The buffer, a draft and the terminal stay in step**, whatever is typed at a fresh prompt. -/
theorem editor_in_step (h : FreshPrompt s) (htext : OneLine text) :
    (text.foldl Shell.handleChar s).line.commandCursor
        ≤ (text.foldl Shell.handleChar s).line.commandLength ∧
      (text.foldl Shell.handleChar s).line.commandLength ≤ 63 ∧
      LineHolds (text.foldl Shell.handleChar s).line
        (text.foldl (Session.type s.history.texts) (Session.fresh s.history.texts)).draft := by
  have hline := (h.inStep.typed htext).line
  refine ⟨?_, ?_, hline⟩
  · rw [hline.cursor, hline.length, Draft.text, List.length_append]
    exact Nat.le_add_right _ _
  · rw [hline.length]
    exact hline.short

/-- `h`, TAB, which lists what `h` begins, LEFT, and an escape sequence begun. -/
theorem editor_in_step_help :
    let s := [0x68, 0x09, 0x02, 0x1b].foldl Shell.handleChar bootShell.init
    s.line.commandCursor ≤ s.line.commandLength ∧ s.line.commandLength ≤ 63 ∧
      LineHolds s.line
        ([0x68, 0x09, 0x02, 0x1b].foldl (Session.type bootShell.init.history.texts)
          (Session.fresh bootShell.init.history.texts)).draft :=
  editor_in_step .boot (by decide)

end Sessions

end SaturnOS
