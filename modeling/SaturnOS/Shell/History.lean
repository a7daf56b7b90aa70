import SaturnOS.Machinery.Recents
import SaturnOS.Machinery.Rings
import SaturnOS.Shell.Session

/-!
# Shell/History — the lines that were entered

    history_buffer   │ i │ j │ c │ d │ e │ f │ g │ h │      texts  c d e f g h i j
                               ▴ history_next                        ▴ history_view

The history is a ring that fills from its first buffer on, and then goes round.  Read from the
oldest line on, it holds what is to be remembered of the lines that were entered
(`session_typed`), and UP and DOWN go along it from place to place (`InStep.walksTo`).
-/

open Machinery

namespace SaturnOS

/-- What the history is to hold of the lines that were entered: the last ones, without those that
are empty, and without those that were entered twice in a row. -/
def remembered (lines : List (List Byte)) : List (List Byte) :=
  recents shellHistorySize (lines.filter (· ≠ []))

theorem remembered_concat {lines : List (List Byte)} {line : List Byte} :
    remembered (lines ++ [line])
      = if line = [] then remembered lines
        else remember shellHistorySize (remembered lines) line := by
  rw [remembered, List.filter_append]
  by_cases hline : line = []
  · rw [if_pos hline, List.filter_cons_of_neg (by simpa using hline), List.filter_nil,
      List.append_nil]
    rfl
  · rw [if_neg hline, List.filter_cons_of_pos (by simpa using hline), List.filter_nil,
      recents_concat (by decide)]
    rfl

/-! ## A ring -/

section Ring

variable {h : ShellHistory} {command : ℕ → Byte} {t : List Byte} {i : ℕ}

/-- The line in each buffer. -/
def ShellHistory.lines (h : ShellHistory) (j : ℕ) : List Byte :=
  stringAt (h.historyBuffer j) 0 shellBufferSize

/-- Where the oldest line is. -/
def ShellHistory.first (h : ShellHistory) : ℕ :=
  if h.historyCount < shellHistorySize then 0 else h.historyNext

theorem index_eq (hi : i < h.historyCount) (hcount : h.historyCount ≤ shellHistorySize) :
    h.index i = (h.first + i) % shellHistorySize := by
  rw [ShellHistory.index, ShellHistory.first]
  split
  · rw [Nat.zero_add, Nat.mod_eq_of_lt (Nat.lt_of_lt_of_le hi hcount)]
  · rfl

/-- **The lines of the history are a list in a ring.** -/
theorem texts_ring (hok : HistoryOk h) :
    h.texts = ringList h.lines shellHistorySize h.first h.historyCount := by
  refine List.map_congr_left fun i hi => ?_
  rw [ShellHistory.entry, index_eq (List.mem_range.mp hi) hok.count]
  rfl

/-- A line is copied into the next buffer. -/
def ShellHistory.push (h : ShellHistory) (command : ℕ → Byte) : ShellHistory where
  historyBuffer := Function.update h.historyBuffer h.historyNext
    (shellCopyString (h.historyBuffer h.historyNext) command)
  historyNext := (h.historyNext + 1) % shellHistorySize
  historyCount := if h.historyCount < shellHistorySize then h.historyCount + 1 else h.historyCount
  historyView := if h.historyCount < shellHistorySize then h.historyCount + 1 else h.historyCount

/-- `history_add` copies, but for an empty line and the newest one. -/
theorem add_eq : h.add command =
    if command 0 = 0 then h
    else if 0 < h.historyCount ∧
        pathEquals (h.entry (h.historyCount - 1)) 0 (stringAt command 0 shellBufferSize) then
      { h with historyView := h.historyCount }
    else h.push command := by
  rw [ShellHistory.add, ShellHistory.push]
  by_cases hroom : h.historyCount < shellHistorySize
  · simp only [if_pos hroom]
  · simp only [if_neg hroom]

/-- The comparison with the newest line. -/
theorem repeats_iff (hok : HistoryOk h) (hline : SpellsLine command t) :
    (0 < h.historyCount ∧
      pathEquals (h.entry (h.historyCount - 1)) 0 (stringAt command 0 shellBufferSize) = true) ↔
      h.texts.getLast? = some t := by
  have hnoNul : 0 ∉ t := (spells_iff.mp hline.spells).1
  rw [hline.stringAt, pathEquals_iff hnoNul, List.getLast?_eq_getElem?, length_texts]
  constructor
  · rintro ⟨hpos, hspells⟩
    have hlast : h.historyCount - 1 < h.texts.length := by
      rw [length_texts]
      omega
    have hentry := hok.entry (i := h.historyCount - 1) (by omega)
    have htext := (hentry.stringAt).symm.trans
      (stringAt_eq hspells (Nat.le_succ_of_le hline.short))
    rw [← htext, List.getD_eq_getElem _ _ hlast, List.getElem?_eq_getElem hlast]
  · intro hget
    obtain ⟨hlast, heq⟩ := List.getElem?_eq_some_iff.mp hget
    rw [length_texts] at hlast
    have hentry := hok.entry hlast
    rw [List.getD_eq_getElem _ _ (by rwa [length_texts]), heq] at hentry
    exact ⟨by omega, hentry.spells⟩

theorem push_lines (hline : SpellsLine command t) :
    (h.push command).lines = Function.update h.lines h.historyNext t := by
  have hcopy : stringAt (shellCopyString (h.historyBuffer h.historyNext) command) 0
      shellBufferSize = t :=
    stringAt_eq (spells_copyString hline.spells hline.short) (Nat.le_succ_of_le hline.short)
  funext j
  rw [← hcopy]
  exact Function.apply_update (fun _ buffer => stringAt buffer 0 shellBufferSize) _ _ _ _

/-- **While the ring fills**, from its first buffer on, the line comes last… -/
theorem push_filling (hok : HistoryOk h) (hpush : HistoryOk (h.push command))
    (hline : SpellsLine command t) (hroom : h.historyCount < shellHistorySize) :
    (h.push command).texts = h.texts ++ [t] := by
  have hnext : h.historyNext = (0 + h.historyCount) % shellHistorySize := by
    rw [hok.filling hroom, Nat.zero_add, Nat.mod_eq_of_lt hroom]
  have hold : h.texts = ringList h.lines shellHistorySize 0 h.historyCount := by
    rw [texts_ring hok, ShellHistory.first, if_pos hroom]
  have hnew : (h.push command).historyCount = h.historyCount + 1 := if_pos hroom
  have hfirst : (h.push command).first % shellHistorySize = 0 % shellHistorySize := by
    rw [ShellHistory.first, hnew]
    split
    · rfl
    · have hlast : h.historyCount + 1 = shellHistorySize := by omega
      show (h.historyNext + 1) % shellHistorySize % shellHistorySize = 0 % shellHistorySize
      rw [hok.filling hroom, hlast]
      rfl
  rw [texts_ring hpush, push_lines hline, ringList_start hfirst, hnew, hnext, ringList_push hroom,
    hold]

/-- **…and when it is full** the oldest one goes. -/
theorem push_full (hok : HistoryOk h) (hpush : HistoryOk (h.push command))
    (hline : SpellsLine command t) (hfull : h.historyCount = shellHistorySize) :
    (h.push command).texts = h.texts.tail ++ [t] := by
  have hroom : ¬h.historyCount < shellHistorySize := Nat.not_lt.mpr (Nat.le_of_eq hfull.symm)
  have hold : h.texts = ringList h.lines shellHistorySize h.historyNext shellHistorySize := by
    rw [texts_ring hok, ShellHistory.first, if_neg hroom, hfull]
  have hnew : (h.push command).historyCount = shellHistorySize := (if_neg hroom).trans hfull
  have hfirst : (h.push command).first % shellHistorySize
      = (h.historyNext + 1) % shellHistorySize := by
    rw [ShellHistory.first, hnew, if_neg (Nat.lt_irrefl _)]
    exact Nat.mod_mod _ _
  have hover := @ringList_overwrite _ h.lines shellHistorySize h.historyNext t (by decide)
  rw [Nat.mod_eq_of_lt hok.next] at hover
  rw [texts_ring hpush, push_lines hline, ringList_start hfirst, hnew, hover, hold]

theorem push_texts (hok : HistoryOk h) (hpush : HistoryOk (h.push command))
    (hline : SpellsLine command t) :
    (h.push command).texts = (h.texts ++ [t]).rtake shellHistorySize := by
  have hlength := length_texts h
  rcases Nat.lt_or_eq_of_le hok.count with hroom | hfull
  · rw [push_filling hok hpush hline hroom, rtake_of_length_le]
    rw [List.length_append, hlength]
    exact hroom
  · rw [push_full hok hpush hline hfull, rtake_concat_full (hlength.trans hfull) (by decide)]

/-- **`history_add`**, of a line. -/
theorem add_texts (hok : HistoryOk h) (hline : SpellsLine command t) :
    (h.add command).texts
      = if t = [] then h.texts else remember shellHistorySize h.texts t := by
  have hadd := hok.add hline
  have hempty : command 0 = 0 ↔ t = [] := by
    cases t with
    | nil => exact iff_of_true hline.spells rfl
    | cons c t =>
      obtain ⟨hc, hzero, _⟩ := hline.spells
      exact iff_of_false (fun heq => hc (hzero ▸ heq)) (List.cons_ne_nil c t)
  rw [add_eq] at hadd ⊢
  by_cases hnil : t = []
  · rw [if_pos (hempty.mpr hnil), if_pos hnil]
  rw [if_neg (mt hempty.mp hnil)] at hadd ⊢
  rw [if_neg hnil, remember]
  by_cases hlast : h.texts.getLast? = some t
  · rw [if_pos ((repeats_iff hok hline).mpr hlast), if_pos hlast]
    rfl
  rw [if_neg (mt (repeats_iff hok hline).mp hlast)] at hadd ⊢
  rw [if_neg hlast]
  exact push_texts hok hadd hline

end Ring

/-! ## The lines that are entered -/

/-- The line that a character enters, as `history_add` is given it. -/
def Shell.entered (s : Shell) (c : Byte) : List (List Byte) :=
  if s.escapeState = 0 ∧ (c = 0x0a ∨ c = 0x0d) then
    [stringAt (Function.update s.line.commandBuffer s.line.commandLength 0) 0 shellBufferSize]
  else []

/-- The lines that are entered while a text is typed. -/
def Shell.submitted : Shell → List Byte → List (List Byte)
  | _, [] => []
  | s, c :: text => s.entered c ++ (s.handleChar c).submitted text

section Lines

variable {history lines : List (List Byte)} {s : Shell} {a : Session} {c : Byte}

theorem InStep.entered (h : InStep history s a) (hescape : s.escapeState = 0)
    (hc : ¬(c ≠ 0x0a ∧ c ≠ 0x0d)) : s.entered c = [a.draft.text] := by
  rw [Shell.entered, if_pos ⟨hescape, by tauto⟩, h.commandLine.stringAt]

/-- **A character is typed**: the history goes on holding what it is to hold. -/
theorem InStep.remembers (h : InStep (remembered lines) s a) (c : Byte) :
    ∃ b, InStep (remembered (lines ++ s.entered c)) (s.handleChar c) b := by
  by_cases hc : c ≠ 0x0a ∧ c ≠ 0x0d
  · have hnone : s.entered c = [] := if_neg (by tauto)
    rw [hnone, List.append_nil]
    exact ⟨_, h.handleChar hc⟩
  rw [handleChar_newline hc]
  by_cases hescape : s.escapeState = 0
  · have htexts : s.enter.history.texts = remembered (lines ++ [a.draft.text]) := by
      rw [remembered_concat, ← h.texts]
      exact add_texts h.historyOk h.commandLine
    have henter := h.enter
    rw [htexts] at henter
    rw [if_pos hescape, h.entered hescape hc]
    exact ⟨_, henter⟩
  · have hnone : s.entered c = [] := if_neg (fun hand => hescape hand.1)
    rw [if_neg hescape, hnone, List.append_nil]
    exact ⟨{ a with escape := .none },
      ⟨h.line, rfl, h.view, h.view_le, h.historyOk, h.texts⟩⟩

/-- **A text is typed**, of however many lines. -/
theorem InStep.remembersAll (h : InStep (remembered lines) s a) (text : List Byte) :
    ∃ b, InStep (remembered (lines ++ s.submitted text)) (text.foldl Shell.handleChar s) b := by
  induction text generalizing lines s a with
  | nil =>
    rw [Shell.submitted, List.append_nil]
    exact ⟨a, h⟩
  | cons c text ih =>
    obtain ⟨b, hb⟩ := h.remembers c
    rw [Shell.submitted, ← List.append_assoc]
    exact ih hb

/-- **After any text, typed from the start on**. -/
theorem session_typed (text : List Byte) :
    ∃ b, InStep (remembered (bootShell.init.submitted text))
      (text.foldl Shell.handleChar bootShell.init) b := by
  have hboot : InStep (remembered []) bootShell.init (Session.fresh (remembered [])) :=
    FreshPrompt.boot.inStep
  exact hboot.remembersAll text

theorem submitted_append (s : Shell) (text text' : List Byte) : s.submitted (text ++ text')
    = s.submitted text ++ (text.foldl Shell.handleChar s).submitted text' := by
  induction text generalizing s with
  | nil => rfl
  | cons c text ih =>
    rw [List.cons_append, Shell.submitted, Shell.submitted, ih, List.append_assoc]
    rfl

theorem submitted_oneLine {text : List Byte} (h : OneLine text) (s : Shell) :
    s.submitted text = [] := by
  induction text generalizing s with
  | nil => rfl
  | cons c text ih =>
    obtain ⟨hc, htext⟩ := List.forall_mem_cons.mp h
    have hnone : s.entered c = [] := if_neg (fun hend => hend.2.elim hc.1 hc.2)
    rw [Shell.submitted, hnone, ih htext]
    rfl

theorem readKey_printable (hc : Printable c) : readKey .none c = (.none, .insert c) := by
  have hne : ∀ code, ¬Printable code → c ≠ code := fun code hcode heq => hcode (heq ▸ hc)
  have hrange : ¬(c < 0x20#8 ∨ 0x7e#8 < c) :=
    not_or.mpr ⟨BitVec.not_lt.mpr hc.1, BitVec.not_lt.mpr hc.2⟩
  rw [readKey, if_neg (hne _ (by decide)), plainKey]
  iterate 8 rw [if_neg (hne _ (by decide))]
  rw [if_neg (not_or.mpr ⟨hne _ (by decide), hne _ (by decide)⟩), if_neg hrange]

/-- Characters that are printed are put at the end of the draft. -/
theorem type_printable {b line : List Byte} (hline : ∀ c ∈ line, Printable c)
    (hshort : b.length + line.length ≤ 63) :
    line.foldl (Session.type history) ⟨⟨b, []⟩, history.length, .none⟩
      = ⟨⟨b ++ line, []⟩, history.length, .none⟩ := by
  induction line generalizing b with
  | nil => rw [List.append_nil, List.foldl_nil]
  | cons c line ih =>
    obtain ⟨hc, hline⟩ := List.forall_mem_cons.mp hline
    rw [List.length_cons] at hshort
    have hroom : ¬63 ≤ (b ++ []).length := by
      rw [List.append_nil]
      omega
    have htype : Session.type history ⟨⟨b, []⟩, history.length, .none⟩ c
        = ⟨⟨b ++ [c], []⟩, history.length, .none⟩ := by
      rw [Session.type, readKey_printable hc]
      dsimp only [Session.press]
      rw [Draft.text, if_neg hroom, Draft.insert]
    rw [List.foldl_cons, htype, ih hline (by rw [List.length_append, List.length_singleton]; omega),
      List.append_assoc, List.singleton_append]

/-- A line that the buffer has room for, of characters that are printed. -/
def Typable (line : List Byte) : Prop := (∀ c ∈ line, Printable c) ∧ line.length ≤ 63

/-- **A line is typed and entered** as it is. -/
theorem InStep.submitted (h : InStep history s (Session.fresh history)) {line : List Byte}
    (hline : Typable line) :
    s.submitted (line ++ [0x0a]) = [line] ∧
      ∃ history', InStep history' ((line ++ [0x0a]).foldl Shell.handleChar s)
        (Session.fresh history') := by
  obtain ⟨hprintable, hshort⟩ := hline
  have honeLine : OneLine line := fun c hc =>
    ⟨fun heq => absurd (heq ▸ hprintable c hc) (by decide),
      fun heq => absurd (heq ▸ hprintable c hc) (by decide)⟩
  have htyped := h.typed honeLine
  rw [Session.fresh, type_printable hprintable (by rwa [List.length_nil, Nat.zero_add])] at htyped
  have hescape : (line.foldl Shell.handleChar s).escapeState = 0 := htyped.escape
  constructor
  · rw [submitted_append, submitted_oneLine honeLine, List.nil_append, Shell.submitted,
      htyped.entered hescape (by decide)]
    exact congrArg ([·]) (List.append_nil _)
  · rw [List.foldl_append, List.foldl_cons, List.foldl_nil, handleChar_newline (by decide),
      if_pos hescape]
    exact ⟨_, htyped.enter⟩

/-- **Any lines may be entered**, one after the other. -/
theorem submitted_lines (hlines : ∀ line ∈ lines, Typable line) :
    bootShell.init.submitted (lines.flatMap (· ++ [0x0a])) = lines := by
  have hfrom : ∀ {history s}, InStep history s (Session.fresh history) →
      s.submitted (lines.flatMap (· ++ [0x0a])) = lines := by
    induction lines with
    | nil => exact fun _ => rfl
    | cons line lines ih =>
      intro history s h
      obtain ⟨hline, hlines⟩ := List.forall_mem_cons.mp hlines
      obtain ⟨hfirst, _, hnext⟩ := h.submitted hline
      rw [List.flatMap_cons, submitted_append, hfirst, ih hlines hnext]
      rfl
  exact hfrom FreshPrompt.boot.inStep

/-- …and the history holds the last of them. -/
theorem texts_lines (hlines : ∀ line ∈ lines, Typable line) :
    ((lines.flatMap (· ++ [0x0a])).foldl Shell.handleChar bootShell.init).history.texts
      = remembered lines := by
  obtain ⟨_, h⟩ := session_typed (lines.flatMap (· ++ [0x0a]))
  rw [submitted_lines hlines] at h
  exact h.texts

end Lines

/-! ## Along the history -/

/-- What UP sends… -/
def upKeys : List (List Byte) := [[0x03], [0x1b, 0x5b, 0x41]]

/-- …and DOWN. -/
def downKeys : List (List Byte) := [[0x0e], [0x1b, 0x5b, 0x42]]

/-- The characters are the key: one of its own, or the sequence that ends with another. -/
def Spelling (key : Key) (spelling : List Byte) : Prop :=
  ∃ c, spelling = [c] ∧ readKey .none c = (.none, key) ∨
    spelling = [0x1b, 0x5b, c] ∧ readKey .bracket c = (.none, key)

theorem spelling_up : ∀ keys ∈ upKeys, Spelling .previous keys := by
  rintro _ (_ | ⟨_, _ | ⟨_, ⟨⟩⟩⟩)
  · exact ⟨_, .inl ⟨rfl, rfl⟩⟩
  · exact ⟨_, .inr ⟨rfl, rfl⟩⟩

theorem spelling_down : ∀ keys ∈ downKeys, Spelling .next keys := by
  rintro _ (_ | ⟨_, _ | ⟨_, ⟨⟩⟩⟩)
  · exact ⟨_, .inl ⟨rfl, rfl⟩⟩
  · exact ⟨_, .inr ⟨rfl, rfl⟩⟩

section Walk

variable {history : List (List Byte)} {s : Shell} {a : Session} {key : Key} {k d : ℕ}

/-- **A key is pressed**, however it is spelled. -/
theorem type_key {spelling : List Byte} (h : Spelling key spelling) (ha : a.escape = .none) :
    spelling.foldl (Session.type history) a = a.press history key := by
  obtain ⟨draft, view, escape⟩ := a
  subst ha
  have hescape := @press_escape history ⟨draft, view, .none⟩
  obtain ⟨c, ⟨rfl, hread⟩ | ⟨rfl, hread⟩⟩ := h
  · rw [List.foldl_cons, List.foldl_nil, Session.type, hread]
    exact (hescape .none key).symm
  · rw [List.foldl_cons, List.foldl_cons, List.foldl_cons, List.foldl_nil]
    show Session.type history ⟨draft, view, .bracket⟩ c = _
    rw [Session.type, hread]
    exact (congrArg (fun b : Session => { b with escape := .none }) (hescape .bracket key)).trans
      (hescape .none key).symm

theorem escape_press : (a.press history key).escape = a.escape := by
  have hescape := congrArg Session.escape (@press_escape history a a.escape key)
  exact hescape

/-- …and again and again. -/
theorem type_keys {keys : List (List Byte)} (h : ∀ spelling ∈ keys, Spelling key spelling)
    (ha : a.escape = .none) :
    keys.flatten.foldl (Session.type history) a
      = (fun b => b.press history key)^[keys.length] a := by
  induction keys generalizing a with
  | nil => rfl
  | cons spelling keys ih =>
    obtain ⟨hspelling, hkeys⟩ := List.forall_mem_cons.mp h
    rw [List.flatten_cons, List.foldl_append, type_key hspelling ha,
      ih hkeys (escape_press.trans ha)]
    rfl

/-- **UP, so many times**: no line is left out, and the oldest one is the last. -/
theorem previous_iterate (k : ℕ) : (fun b => b.press history .previous)^[k] a =
    if 0 < k ∧ 0 < a.view then
      { a with draft := ⟨history.getD (a.view - k) [], []⟩, view := a.view - k }
    else a := by
  induction k with
  | zero => rfl
  | succ k ih =>
    rw [Function.iterate_succ_apply', ih]
    by_cases hview : a.view = 0
    · rw [if_neg (by omega), if_neg (by omega)]
      exact if_pos hview
    have hpos := Nat.pos_of_ne_zero hview
    rcases Nat.eq_zero_or_pos k with rfl | hk
    · rw [if_neg (fun h => Nat.lt_irrefl 0 h.1), if_pos ⟨Nat.one_pos, hpos⟩]
      exact if_neg hview
    rw [if_pos ⟨hk, hpos⟩, if_pos ⟨Nat.succ_pos k, hpos⟩]
    by_cases holdest : a.view - k = 0
    · rw [show a.view - (k + 1) = a.view - k by omega]
      exact if_pos holdest
    · exact if_neg holdest

/-- **DOWN, so many times**: the newest line is the last but one, and then comes an empty one. -/
theorem next_iterate (d : ℕ) : (fun b => b.press history .next)^[d] a =
    if 0 < d ∧ a.view < history.length then
      { a with
        draft := ⟨history.getD (min (a.view + d) history.length) [], []⟩
        view := min (a.view + d) history.length }
    else a := by
  induction d with
  | zero => rfl
  | succ d ih =>
    rw [Function.iterate_succ_apply', ih]
    by_cases hend : history.length ≤ a.view
    · rw [if_neg (by omega), if_neg (by omega)]
      exact if_pos hend
    have hlt := Nat.not_le.mp hend
    rcases Nat.eq_zero_or_pos d with rfl | hd
    · rw [if_neg (fun h => Nat.lt_irrefl 0 h.1), if_pos ⟨Nat.one_pos, hlt⟩, Nat.min_eq_left hlt]
      exact if_neg hend
    rw [if_pos ⟨hd, hlt⟩, if_pos ⟨Nat.succ_pos d, hlt⟩]
    rw [← Nat.add_assoc]
    by_cases hempty : history.length ≤ a.view + d
    · rw [Nat.min_eq_right hempty, Nat.min_eq_right (Nat.le_succ_of_le hempty)]
      exact if_pos (Nat.le_refl _)
    · have hmore := Nat.not_le.mp hempty
      rw [Nat.min_eq_left (Nat.le_of_lt hmore), Nat.min_eq_left hmore]
      exact if_neg hempty

/-- UP so many times, and then DOWN. -/
def Session.walk (history : List (List Byte)) (k d : ℕ) (a : Session) : Session :=
  (fun b => b.press history .next)^[d] ((fun b => b.press history .previous)^[k] a)

theorem walk_view (hview : a.view ≤ history.length) :
    (a.walk history k d).view = min (a.view - k + d) history.length := by
  have hup : ((fun b => Session.press history b .previous)^[k] a).view = a.view - k := by
    rw [previous_iterate]
    split
    · rfl
    · omega
  rw [Session.walk, next_iterate, hup]
  split
  · rfl
  · rw [hup]
    omega

/-- **The line that is shown** is the one at the place, when the place was left. -/
theorem walk_text (hview : a.view ≤ history.length) : (a.walk history k d).draft.text =
    if 0 < k ∧ 0 < a.view ∨ 0 < d ∧ a.view - k < history.length then
      history.getD (min (a.view - k + d) history.length) []
    else a.draft.text := by
  have htext : ∀ i, (⟨history.getD i [], []⟩ : Draft Byte).text = history.getD i [] :=
    fun _ => List.append_nil _
  rw [Session.walk, next_iterate, previous_iterate]
  by_cases hup : 0 < k ∧ 0 < a.view
  · have hleft : 0 < k ∧ 0 < a.view ∨ 0 < d ∧ a.view - k < history.length := .inl hup
    rw [if_pos hup, if_pos hleft]
    split
    · exact htext _
    · rename_i hstay
      have hstay : ¬(0 < d ∧ a.view - k < history.length) := hstay
      rw [show min (a.view - k + d) history.length = a.view - k by omega]
      exact htext _
  · have hsame : a.view - k = a.view := by omega
    rw [if_neg hup, hsame]
    by_cases hdown : 0 < d ∧ a.view < history.length
    · have hleft : 0 < k ∧ 0 < a.view ∨ 0 < d ∧ a.view < history.length := .inr hdown
      rw [if_pos hdown, if_pos hleft]
      exact htext _
    · rw [if_neg hdown, if_neg (not_or.mpr ⟨hup, hdown⟩)]

theorem mem_flatten_oneLine {keys spellings : List (List Byte)}
    (h : ∀ key ∈ keys, key ∈ spellings) (hline : ∀ key ∈ spellings, OneLine key) :
    OneLine keys.flatten := by
  intro c hc
  obtain ⟨key, hkey, hc⟩ := List.mem_flatten.mp hc
  exact hline key (h key hkey) c hc

/-- **UP and DOWN are pressed**: the shell goes along the history. -/
theorem InStep.walk (h : InStep history s a) (ha : a.escape = .none) {ups downs : List (List Byte)}
    (hups : ∀ key ∈ ups, key ∈ upKeys) (hdowns : ∀ key ∈ downs, key ∈ downKeys) :
    InStep history ((ups.flatten ++ downs.flatten).foldl Shell.handleChar s)
      (a.walk history ups.length downs.length) := by
  have hescape : ((fun b => Session.press history b .previous)^[ups.length] a).escape = .none := by
    rw [previous_iterate]
    split
    · exact ha
    · exact ha
  have hup := h.typed (mem_flatten_oneLine hups (by decide))
  rw [type_keys (fun key hkey => spelling_up key (hups key hkey)) ha] at hup
  have hdown := hup.typed (mem_flatten_oneLine hdowns (by decide))
  rw [type_keys (fun key hkey => spelling_down key (hdowns key hkey)) hescape] at hdown
  rw [List.foldl_append]
  exact hdown

/-- A place in the history, and the line in the buffer. -/
theorem InStep.shown (h : InStep history s a) :
    stringAt s.line.commandBuffer 0 shellBufferSize = a.draft.text :=
  stringAt_eq h.line.spells (Nat.le_succ_of_le h.line.short)

theorem Escape.code_eq_zero {escape : Escape} (h : escape.code = 0) : escape = .none := by
  cases escape with
  | none => rfl
  | _ => exact nomatch h

/-- From `s` the shell has gone to `t`, along the history: up so many places, and then down. -/
structure WalksTo (s t : Shell) (ups downs : ℕ) : Prop where
  texts : t.history.texts = s.history.texts
  view : t.history.historyView
    = min (s.history.historyView - ups + downs) s.history.historyCount
  /-- The line is the one of its place, and behind the newest one it is empty. -/
  line : stringAt t.line.commandBuffer 0 shellBufferSize =
    if 0 < ups ∧ 0 < s.history.historyView ∨
        0 < downs ∧ s.history.historyView - ups < s.history.historyCount then
      s.history.texts.getD t.history.historyView []
    else stringAt s.line.commandBuffer 0 shellBufferSize
  /-- From behind the newest one up, and as far down. -/
  empty : s.history.historyView = s.history.historyCount →
    0 < min ups s.history.historyCount → min ups s.history.historyCount ≤ downs →
    stringAt t.line.commandBuffer 0 shellBufferSize = []

theorem InStep.walksTo (h : InStep history s a) (hescape : s.escapeState = 0)
    {ups downs : List (List Byte)} (hups : ∀ key ∈ ups, key ∈ upKeys)
    (hdowns : ∀ key ∈ downs, key ∈ downKeys) :
    WalksTo s ((ups.flatten ++ downs.flatten).foldl Shell.handleChar s) ups.length
      downs.length := by
  have hlength := h.length
  have hle : a.view ≤ history.length := hlength.symm ▸ h.view_le
  have hwalk := h.walk (Escape.code_eq_zero (h.escape.symm.trans hescape)) hups hdowns
  have hview := hwalk.view.trans (walk_view hle)
  have hline := hwalk.shown.trans (walk_text hle)
  rw [← hview, ← h.shown, ← h.view, ← h.texts, length_texts] at hline
  rw [← h.view, hlength] at hview
  refine ⟨hwalk.texts.trans h.texts.symm, hview, hline, fun hend hups hdowns => ?_⟩
  rw [hline, if_pos (by omega), hview]
  exact List.getD_eq_default _ _ (by rw [length_texts]; omega)

end Walk

/-- **The history remembers**, whatever has been typed: it holds the last lines that were entered,
its place is one of them or behind them, and UP and DOWN go from place to place. -/
theorem history_remembers (text : List Byte) :
    let s := text.foldl Shell.handleChar bootShell.init
    s.history.texts = remembered (bootShell.init.submitted text) ∧
      s.history.historyView ≤ s.history.historyCount ∧
      (∀ i, i < s.history.historyCount → s.history.index i < s.history.historyCount) ∧
      (s.escapeState = 0 → ∀ ups downs : List (List Byte), (∀ key ∈ ups, key ∈ upKeys) →
        (∀ key ∈ downs, key ∈ downKeys) →
        WalksTo s ((ups.flatten ++ downs.flatten).foldl Shell.handleChar s) ups.length
          downs.length) := by
  obtain ⟨a, h⟩ := session_typed text
  refine ⟨h.texts, h.view.symm ▸ h.view_le, fun i hi => index_lt hi, ?_⟩
  intro hescape ups downs hups hdowns
  exact h.walksTo hescape hups hdowns

end SaturnOS
