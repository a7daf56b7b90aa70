import SaturnOS.Fs.Path
import SaturnOS.Machinery.Rasters

/-!
# Shell/Editor — the line editor of the shell

    saturn> h e l l o _          command_buffer  h e l l o 0 ⋯
                    ▴            command_length  5
              command_cursor     rendered_length 5

The editor of `kernel/shell/shell.c`: `shell_handle_char` takes a character, changes the buffer and
prints what brings the line on the terminal up to date: the characters that have changed, blanks
over those that are gone, and `'\b'` back to the cursor.
-/

open Machinery

namespace SaturnOS

def shellBufferSize : ℕ := 64
def shellHistorySize : ℕ := 8
def shellPromptText : List Byte := ascii "saturn> "

/-- The names in `shell_commands`… -/
def shellCommands : List (List Byte) := [
  ascii "help", ascii "version", ascii "task", ascii "tasks", ascii "mem", ascii "heap",
  ascii "heaptest", ascii "vm", ascii "vmwalk", ascii "ticks", ascii "yield", ascii "sleep",
  ascii "block", ascii "unblock", ascii "reap", ascii "syscall", ascii "ls", ascii "cat",
  ascii "run", ascii "mkdir", ascii "write", ascii "disk", ascii "pfs", ascii "pwrite",
  ascii "pcat", ascii "fb", ascii "user", ascii "clear", ascii "panic", ascii "fault"]

/-- …and in `shell_aliases`. -/
def shellAliases : List (List Byte) := [
  ascii "h", ascii "?", ascii "tl", ascii "ps", ascii "free", ascii "top", ascii "uptime",
  ascii "y", ascii "nap", ascii "blk", ascii "unblk", ascii "rz", ascii "sc", ascii "video",
  ascii "ustats", ascii "cls"]

/-- The statics of the line. -/
structure ShellLine where
  commandBuffer : ℕ → Byte
  commandLength : ℕ
  commandCursor : ℕ
  renderedLength : ℕ
  /-- Not in the source: what was printed since the line began. -/
  printed : List Byte

/-- The statics of the history. -/
structure ShellHistory where
  historyBuffer : ℕ → ℕ → Byte
  historyCount : ℕ
  historyNext : ℕ
  historyView : ℕ

structure Shell where
  line : ShellLine
  history : ShellHistory
  escapeState : ℕ

/-! ## Strings -/

/-- The loop of `copy_string`, for so many characters more. -/
def shellCopyLoop (source : ℕ → Byte) : ℕ → ℕ → (ℕ → Byte) → ℕ → Byte
  | 0, i, destination => Function.update destination i 0
  | n + 1, i, destination =>
    if source i ≠ 0 then shellCopyLoop source n (i + 1) (Function.update destination i (source i))
    else Function.update destination i 0

def shellCopyString (destination source : ℕ → Byte) : ℕ → Byte :=
  shellCopyLoop source (shellBufferSize - 1) 0 destination

/-- `string_length` of a buffer. -/
def shellStringLength (m : ℕ → Byte) : ℕ := (stringAt m 0 shellBufferSize).length

/-- The characters of a literal, and its zero. -/
def shellLiteral (text : List Byte) (i : ℕ) : Byte := text.getD i 0

/-! ## The line -/

namespace ShellLine

def print (s : ShellLine) (text : List Byte) : ShellLine :=
  { s with printed := s.printed ++ text }

/-- `shell_prompt` -/
def prompt (s : ShellLine) : ShellLine := { s.print shellPromptText with renderedLength := 0 }

def moveLeft (s : ShellLine) : ℕ → ShellLine
  | 0 => s
  | count + 1 => (s.print [0x08]).moveLeft count

def moveRight (s : ShellLine) : ℕ → ShellLine
  | 0 => s
  | count + 1 =>
    if s.commandCursor < s.commandLength then
      { s.print [s.commandBuffer s.commandCursor] with
        commandCursor := s.commandCursor + 1 }.moveRight count
    else s

/-- `for (i = first; i < command_length; i++) kprintf("%c", command_buffer[i])` -/
def printBuffer (s : ShellLine) (first : ℕ) : ShellLine :=
  countUp first s.commandLength (fun i t => t.print [s.commandBuffer i]) s

def redrawFromCursor (s : ShellLine) (oldLength : ℕ) : ShellLine :=
  let printed := s.commandLength - s.commandCursor
  let s := s.printBuffer s.commandCursor
  let eraseCount := oldLength - s.commandLength
  let s := countUp 0 eraseCount (fun _ t => t.print [0x20]) s
  { s.moveLeft (printed + eraseCount) with renderedLength := s.commandLength }

def redrawCurrentLine (s : ShellLine) : ShellLine :=
  let s := s.prompt.printBuffer 0
  { s with commandCursor := s.commandLength, renderedLength := s.commandLength }

def home (s : ShellLine) : ShellLine := { s.moveLeft s.commandCursor with commandCursor := 0 }

/-- `shell_end` -/
def toEnd (s : ShellLine) : ShellLine := s.moveRight (s.commandLength - s.commandCursor)

def replaceLine (s : ShellLine) (text : ℕ → Byte) : ShellLine :=
  let oldLength := s.commandLength
  let s := s.home
  let buffer := shellCopyString s.commandBuffer text
  ({ s with
    commandBuffer := buffer
    commandLength := shellStringLength buffer
    commandCursor := 0 }.redrawFromCursor oldLength).toEnd

/-- `for (i = command_length; i > command_cursor; i--) command_buffer[i] = command_buffer[i - 1]` -/
def shiftUp (cursor : ℕ) : ℕ → (ℕ → Byte) → ℕ → Byte
  | 0, buffer => buffer
  | i + 1, buffer =>
    if cursor < i + 1 then shiftUp cursor i (Function.update buffer (i + 1) (buffer i)) else buffer

/-- The line is empty, as after a fresh prompt. -/
def clear (s : ShellLine) : ShellLine :=
  { s with
    commandLength := 0
    commandBuffer := Function.update s.commandBuffer 0 0
    commandCursor := 0
    renderedLength := 0 }

def insertChar (s : ShellLine) (c : Byte) : ShellLine :=
  if shellBufferSize - 1 ≤ s.commandLength then
    (s.print (ascii "\nCommand too long\n")).clear.prompt
  else
    let buffer := shiftUp s.commandCursor s.commandLength s.commandBuffer
    let buffer := Function.update buffer s.commandCursor c
    let length := s.commandLength + 1
    let buffer := Function.update buffer length 0
    let s := { s with commandBuffer := buffer, commandLength := length }.print [c]
    let s : ShellLine := { s with commandCursor := s.commandCursor + 1 }
    let s :=
      if s.commandCursor < s.commandLength then
        (s.printBuffer s.commandCursor).moveLeft (s.commandLength - s.commandCursor)
      else s
    { s with renderedLength := s.commandLength }

def insertText (s : ShellLine) (text : List Byte) : ShellLine := text.foldl insertChar s

/-- The character at the cursor is taken out of the buffer. -/
def closeGap (s : ShellLine) : ShellLine :=
  let buffer := countUp s.commandCursor (s.commandLength - 1)
    (fun i buffer => Function.update buffer i (buffer (i + 1))) s.commandBuffer
  { s with
    commandLength := s.commandLength - 1
    commandBuffer := Function.update buffer (s.commandLength - 1) 0 }

def backspace (s : ShellLine) : ShellLine :=
  let oldLength := s.commandLength
  if s.commandCursor = 0 then s
  else
    ({ s with commandCursor := s.commandCursor - 1 }.print [0x08]).closeGap.redrawFromCursor
      oldLength

def delete (s : ShellLine) : ShellLine :=
  let oldLength := s.commandLength
  if s.commandLength ≤ s.commandCursor then s else s.closeGap.redrawFromCursor oldLength

/-- What LEFT does, by either of its codes. -/
def left (s : ShellLine) : ShellLine :=
  if 0 < s.commandCursor then { s with commandCursor := s.commandCursor - 1 }.print [0x08] else s

def isCompletionTarget (s : ShellLine) : Bool :=
  (List.range s.commandLength).all (fun i => s.commandBuffer i != 0x20) &&
    s.commandCursor == s.commandLength

/-- `command_prefix_matches` -/
def prefixMatches (command : List Byte) (buffer : ℕ → Byte) (length : ℕ) : Bool :=
  (List.range length).all fun i => shellLiteral command i == buffer i

/-- The names that the loops of `shell_autocomplete` find. -/
def matching (s : ShellLine) : List (List Byte) :=
  (shellCommands ++ shellAliases).filter fun name =>
    prefixMatches name s.commandBuffer s.commandLength

def autocomplete (s : ShellLine) : ShellLine :=
  if !s.isCompletionTarget then s
  else
    match s.matching with
    | [] => s
    | [name] => s.insertText (name.drop s.commandLength)
    | names =>
      let s := s.print (ascii "\nMatches:")
      let s := names.foldl (fun s name => s.print (ascii " " ++ name)) s
      (s.print (ascii "\n")).redrawCurrentLine

end ShellLine

/-! ## The history -/

namespace ShellHistory

def index (s : ShellHistory) (logicalIndex : ℕ) : ℕ :=
  if s.historyCount < shellHistorySize then logicalIndex
  else (s.historyNext + logicalIndex) % shellHistorySize

def entry (s : ShellHistory) (logicalIndex : ℕ) : ℕ → Byte :=
  s.historyBuffer (s.index logicalIndex)

/-- `history_add` -/
def add (s : ShellHistory) (command : ℕ → Byte) : ShellHistory :=
  if command 0 = 0 then s
  else if 0 < s.historyCount ∧
      pathEquals (s.entry (s.historyCount - 1)) 0 (stringAt command 0 shellBufferSize) then
    { s with historyView := s.historyCount }
  else
    let s : ShellHistory := { s with
      historyBuffer := Function.update s.historyBuffer s.historyNext
        (shellCopyString (s.historyBuffer s.historyNext) command)
      historyNext := (s.historyNext + 1) % shellHistorySize }
    let s : ShellHistory :=
      if s.historyCount < shellHistorySize then { s with historyCount := s.historyCount + 1 } else s
    { s with historyView := s.historyCount }

end ShellHistory

/-! ## Characters -/

namespace Shell

def historyPrevious (s : Shell) : Shell :=
  if s.history.historyCount = 0 then s
  else if s.history.historyView = 0 then s
  else
    let view := s.history.historyView - 1
    { s with
      history := { s.history with historyView := view }
      line := s.line.replaceLine (s.history.entry view) }

def historyNext (s : Shell) : Shell :=
  if s.history.historyCount = 0 ∨ s.history.historyCount ≤ s.history.historyView then s
  else
    let view := s.history.historyView + 1
    { s with
      history := { s.history with historyView := view }
      line := s.line.replaceLine
        (if view = s.history.historyCount then shellLiteral [] else s.history.entry view) }

/-- An edit of the line. -/
def edit (s : Shell) (f : ShellLine → ShellLine) : Shell := { s with line := f s.line }

/-- `shell_handle_escape_char`, in a state other than 0. -/
def handleEscapeChar (s : Shell) (c : Byte) : Shell :=
  if s.escapeState = 1 then { s with escapeState := if c = 0x5b then 2 else 0 }
  else if s.escapeState = 2 then
    let s := { s with escapeState := 0 }
    if c = 0x44 then s.edit .left
    else if c = 0x41 then s.historyPrevious
    else if c = 0x42 then s.historyNext
    else if c = 0x43 then s.edit (·.moveRight 1)
    else if c = 0x48 then s.edit .home
    else if c = 0x46 then s.edit .toEnd
    else if c = 0x33 then { s with escapeState := 3 }
    else s
  else
    let s := { s with escapeState := 0 }
    if c = 0x7e then s.edit .delete else s

/-- The line is entered, and a fresh prompt printed.  `shell_execute`, which runs in between,
prints, and leaves these statics alone; what was printed before the prompt is forgotten. -/
def enter (s : Shell) : Shell :=
  let buffer := Function.update s.line.commandBuffer s.line.commandLength 0
  let history := s.history.add buffer
  { line := { s.line with commandBuffer := buffer, printed := [] }.clear.prompt
    history := { history with historyView := history.historyCount }
    escapeState := 0 }

/-- `shell_handle_char` -/
def handleChar (s : Shell) (c : Byte) : Shell :=
  let c := if c = 0x0d then 0x0a else c
  if s.escapeState ≠ 0 then s.handleEscapeChar c
  else if c = 0x1b then { s with escapeState := 1 }
  else if c = 0x01 then s.edit .home
  else if c = 0x02 then s.edit .left
  else if c = 0x03 then s.historyPrevious
  else if c = 0x04 then s.edit .delete
  else if c = 0x05 then s.edit .toEnd
  else if c = 0x0e then s.historyNext
  else if c = 0x06 then s.edit (·.moveRight 1)
  else if c = 0x0a then s.enter
  else if c = 0x09 then s.edit .autocomplete
  else if c = 0x08 ∨ c = 0x7f then s.edit .backspace
  else if c < 0x20#8 ∨ 0x7e#8 < c then s
  else
    { s with
      history := { s.history with historyView := s.history.historyCount }
      line := s.line.insertChar c }

/-- `shell_init`, what it prints before the prompt forgotten. -/
def init (s : Shell) : Shell :=
  { line := { s.line with printed := [] }.clear.prompt
    history := { s.history with historyView := s.history.historyCount }
    escapeState := 0 }

end Shell

end SaturnOS
