import Mathlib.Data.List.Find
import SaturnOS.Fs.Vfs
import SaturnOS.Shell.Editor
import SaturnOS.Shell.Numbers

/-!
# Shell/Commands — the commands that write files

    write  /tmp/note  hello
    │      │          └ text, from its first character other than a space on
    │      └ path : char[48]        (pwrite: char[44], of SaturnFS)
    └ the branch of shell_execute

`shell_execute` finds its branch by the first token of the line, or by the whole line, and hands on
the rest of it.  `write` makes the file, writes the text over it and cuts it there, in three calls
of the VFS; `pwrite` stores it in one call of SaturnFS.  Each copies the path out of the line, as
far as its array goes.
-/

open Machinery

namespace SaturnOS

/-! ## Tokens -/

/-- What the names in `shell_aliases` stand for, in their order. -/
def shellTargets : List (List Byte) := [
  ascii "help", ascii "help", ascii "task", ascii "tasks", ascii "mem", ascii "tasks",
  ascii "ticks", ascii "yield", ascii "sleep", ascii "block", ascii "unblock", ascii "reap",
  ascii "syscall", ascii "fb", ascii "user", ascii "clear"]

def commandEquals : List Byte → List Byte → Bool
  | command, [] => command.head?.all (· == space)
  | [], _ :: _ => false
  | c :: command, n :: name => c == n && commandEquals command name

def commandAliasTarget (command : List Byte) : List Byte :=
  let found := (shellAliases.zip shellTargets).find? fun entry => commandEquals command entry.1
  (found.map Prod.snd).getD command

def commandArg (command : CStr) : CStr :=
  ⟨skipSpaces (command.chars.dropWhile (· != space)), fun h =>
    command.noNul ((List.dropWhile_sublist _).mem ((List.dropWhile_sublist _).mem h))⟩

/-- `find_shell_command`, else `find_shell_command_token`. -/
def selectedCommand (text : List Byte) : Option (List Byte) :=
  (shellCommands.find? (text == ·)).or (shellCommands.find? (commandEquals text ·))

/-- The commands whose argument is not unexpected. -/
def shellTakesArg : List (List Byte) := [
  ascii "help", ascii "task", ascii "sleep", ascii "block", ascii "unblock", ascii "reap",
  ascii "syscall", ascii "cat", ascii "run", ascii "mkdir", ascii "write", ascii "disk",
  ascii "pfs", ascii "pwrite", ascii "pcat", ascii "vmwalk"]

/-- The branches of `shell_execute`, in their order; `true` where the whole line is compared. -/
def shellBranches : List (List Byte × Bool) := [
  (ascii "help", false), (ascii "version", true), (ascii "task", false), (ascii "tasks", true),
  (ascii "mem", true), (ascii "heap", true), (ascii "heaptest", true), (ascii "vm", true),
  (ascii "vmwalk", false), (ascii "ticks", true), (ascii "yield", true), (ascii "sleep", false),
  (ascii "block", false), (ascii "unblock", false), (ascii "reap", false),
  (ascii "syscall", false), (ascii "ls", true), (ascii "cat", false), (ascii "run", false),
  (ascii "mkdir", false), (ascii "write", false), (ascii "disk", false), (ascii "pfs", false),
  (ascii "pwrite", false), (ascii "pcat", false), (ascii "fb", true), (ascii "user", true),
  (ascii "clear", true), (ascii "panic", true), (ascii "fault", true)]

/-- The branch that is taken, by its name. -/
def shellBranch (text : List Byte) : Option (List Byte) :=
  (shellBranches.find? fun branch =>
    if branch.2 then text == branch.1 else commandEquals text branch.1).map Prod.fst

/-! ## The branches -/

/-- `path_length` after the loop that copies a path into `max` bytes. -/
def pathLoop (max : ℕ) : ℕ → List Byte → ℕ
  | pathLength, [] => pathLength
  | pathLength, c :: text =>
    if c ≠ space ∧ pathLength + 1 < max then pathLoop max (pathLength + 1) text else pathLength

/-- `vfs_write`, and `vfs_truncate` where that did not fail. -/
def overwriteText (v : Vfs) (path : CStr) (text : List Byte) : Vfs :=
  match vfsWrite v path 0 (some (shellLiteral text)) text.length with
  | (v, none) => v
  | (v, some written) => (vfsTruncate v path written).1

/-- What `write` calls. -/
def putText (v : Vfs) (path : CStr) (text : List Byte) : Vfs :=
  overwriteText (vfsCreate v path none 0).1 path text

/-- What `pwrite` calls. -/
def storeText (v : Vfs) (path : CStr) (text : List Byte) : Vfs :=
  { v with sfs := (sfsWriteFile v.sfs path (some (shellLiteral text)) text.length).1 }

/-- The branch `write`. -/
def shellWrite (v : Vfs) (arg : CStr) : Vfs :=
  let pathLength := pathLoop vfsMaxPath 0 arg.chars
  let text := skipSpaces (arg.chars.drop pathLength)
  if pathLength = 0 ∨ text = [] then v else putText v (arg.take pathLength) text

/-- The branch `pwrite`. -/
def shellPwrite (v : Vfs) (arg : CStr) : Vfs :=
  let pathLength := pathLoop sfsMaxPath 0 arg.chars
  let text := skipSpaces (arg.chars.drop pathLength)
  if pathLength = 0 ∨ text = [] then v else storeText v (arg.take pathLength) text

/-- `shell_execute`, of the two commands that write files; `none` where it takes another branch. -/
def shellExecute (v : Vfs) (command : CStr) : Option Vfs :=
  let effectiveCommand := commandAliasTarget command.chars
  let arg := commandArg command
  if command.chars = [] then some v
  else if arg.chars ≠ [] ∧ (selectedCommand effectiveCommand).any (!shellTakesArg.contains ·) then
    some v
  else if shellBranch effectiveCommand = some (ascii "write") then some (shellWrite v arg)
  else if shellBranch effectiveCommand = some (ascii "pwrite") then some (shellPwrite v arg)
  else none

/-! ## Lines -/

inductive WriteCommand
  | write
  | pwrite

namespace WriteCommand

def name : WriteCommand → List Byte
  | write => ascii "write"
  | pwrite => ascii "pwrite"

/-- How many characters of a path there is room for. -/
def room : WriteCommand → ℕ
  | write => vfsMaxPath - 1
  | pwrite => sfsMaxPath - 1

def branch : WriteCommand → Vfs → CStr → Vfs
  | write => shellWrite
  | pwrite => shellPwrite

/-- What the branch does with a path and a text. -/
def put : WriteCommand → Vfs → CStr → List Byte → Vfs
  | write => putText
  | pwrite => storeText

/-- The text that follows the path, which is cut where there is no more room. -/
def left (cmd : WriteCommand) (path : CStr) (gap : ℕ) (text : List Byte) : List Byte :=
  if path.length ≤ cmd.room then text
  else path.chars.drop cmd.room ++ (List.replicate gap space ++ text)

end WriteCommand

/-- **The line `write P T`**, or `pwrite P T`, with so many spaces between `P` and `T`. -/
structure WriteLine (cmd : WriteCommand) (path : CStr) (gap : ℕ) (text : List Byte)
    (line : CStr) : Prop where
  chars : ∃ spaces, line.chars = cmd.name ++ List.replicate (spaces + 1) space
    ++ (path.chars ++ (List.replicate gap space ++ text))
  path_ne : path.chars ≠ []
  token : space ∉ path.chars
  -- the token ends where it does
  gap_pos : text ≠ [] → 0 < gap
  text_head : text.head? ≠ some space
  short : line.length ≤ 63

section Tokens

variable {command name text : List Byte} {n k : ℕ}

theorem ne_space_iff {c : Byte} : (c != space) = true ↔ c ≠ space := bne_iff_ne

theorem skipSpaces_replicate (n : ℕ) (htext : text.head? ≠ some space) :
    skipSpaces (List.replicate n space ++ text) = text := by
  rw [skipSpaces, List.dropWhile_append_of_pos]
  · cases text with
    | nil => rfl
    | cons c text =>
      rw [List.dropWhile_cons_of_neg]
      rw [beq_iff_eq]
      rintro rfl
      exact htext rfl
  · intro c hc
    rw [List.eq_of_mem_replicate hc]
    rfl

/-- **`command_equals` compares the first token**, where the name is one. -/
theorem commandEquals_iff (hname : space ∉ name) :
    commandEquals command name = true ↔ command.takeWhile (· != space) = name := by
  induction name generalizing command with
  | nil =>
    cases command with
    | nil => exact iff_of_true rfl rfl
    | cons c command =>
      rw [commandEquals, List.head?_cons, Option.all_some, beq_iff_eq, List.takeWhile_cons]
      split
      · rename_i hc
        exact iff_of_false (ne_space_iff.mp hc) (List.cons_ne_nil _ _)
      · rename_i hc
        exact iff_of_true (not_not.mp fun hne => hc (ne_space_iff.mpr hne)) rfl
  | cons n name ih =>
    obtain ⟨hn, hname⟩ := not_or.mp (mt List.mem_cons.mpr hname)
    cases command with
    | nil => exact iff_of_false Bool.false_ne_true (List.cons_ne_nil n name).symm
    | cons c command =>
      rw [commandEquals, Bool.and_eq_true, beq_iff_eq, ih hname, List.takeWhile_cons]
      split
      · rw [List.cons.injEq]
      · rename_i hc
        have hspace : c = space := not_not.mp fun hne => hc (ne_space_iff.mpr hne)
        refine iff_of_false (fun h => hn ?_) (List.cons_ne_nil n name).symm
        rw [← hspace, h.1]

theorem commandEquals_eq (hname : space ∉ name) :
    commandEquals command name = decide (command.takeWhile (· != space) = name) := by
  rw [Bool.eq_iff_iff, commandEquals_iff hname, decide_eq_true_iff]

/-- The loop stops at the end of the token, or where the array is full. -/
theorem pathLoop_eq {max : ℕ} {path rest : List Byte} (hpath : space ∉ path)
    (hrest : ∀ c, rest.head? = some c → c = space) (hk : k < max) :
    pathLoop max k (path ++ rest) = min (k + path.length) (max - 1) := by
  induction path generalizing k with
  | nil =>
    have hstop : pathLoop max k rest = k := by
      cases rest with
      | nil => rfl
      | cons c rest => exact if_neg fun h => h.1 (hrest c rfl)
    rw [List.nil_append, hstop, List.length_nil]
    omega
  | cons c path ih =>
    obtain ⟨hc, hpath⟩ := not_or.mp (mt List.mem_cons.mpr hpath)
    rw [List.cons_append, pathLoop, List.length_cons]
    by_cases hroom : k + 1 < max
    · rw [if_pos ⟨Ne.symm hc, hroom⟩, ih hpath hroom]
      omega
    · rw [if_neg fun h => hroom h.2]
      omega

end Tokens

/-! ## The line is read -/

/-- No name has a space in it. -/
theorem names_noSpace : (∀ entry ∈ shellAliases.zip shellTargets, space ∉ entry.1)
    ∧ (∀ name ∈ shellCommands, space ∉ name) ∧ ∀ branch ∈ shellBranches, space ∉ branch.1 := by
  decide

theorem WriteCommand.name_noSpace (cmd : WriteCommand) : space ∉ cmd.name := by
  cases cmd <;> decide

/-- The branches are the same but for the room and what they call. -/
theorem branch_eq (cmd : WriteCommand) (v : Vfs) (arg : CStr) : cmd.branch v arg =
    if pathLoop (cmd.room + 1) 0 arg.chars = 0
      ∨ skipSpaces (arg.chars.drop (pathLoop (cmd.room + 1) 0 arg.chars)) = [] then v
    else cmd.put v (arg.take (pathLoop (cmd.room + 1) 0 arg.chars))
      (skipSpaces (arg.chars.drop (pathLoop (cmd.room + 1) 0 arg.chars))) := by
  cases cmd <;> rfl

namespace WriteLine

variable {cmd : WriteCommand} {path line : CStr} {gap : ℕ} {text : List Byte}
  (h : WriteLine cmd path gap text line)

include h

/-- The first token of the line, and what follows it. -/
theorem split : line.chars.takeWhile (· != space) = cmd.name
    ∧ ∃ spaces, line.chars.dropWhile (· != space) = List.replicate (spaces + 1) space
      ++ (path.chars ++ (List.replicate gap space ++ text)) := by
  obtain ⟨spaces, hchars⟩ := h.chars
  have hname : ∀ c ∈ cmd.name, (c != space) = true := by
    intro c hc
    rw [ne_space_iff]
    rintro rfl
    exact cmd.name_noSpace hc
  rw [hchars, List.append_assoc, List.replicate_succ, List.takeWhile_append_of_pos hname,
    List.dropWhile_append_of_pos hname]
  exact ⟨List.append_nil _, spaces, rfl⟩

/-- A line with a space in it is no name. -/
theorem ne_name {name : List Byte} (hname : space ∉ name) : line.chars ≠ name := by
  rintro heq
  obtain ⟨spaces, hchars⟩ := h.chars
  refine hname ?_
  rw [← heq, hchars, List.replicate_succ]
  exact List.mem_append_left _ (List.mem_append_right _ List.mem_cons_self)

theorem aliasTarget : commandAliasTarget line.chars = line.chars := by
  have hnone : (shellAliases.zip shellTargets).find?
      (fun entry => commandEquals line.chars entry.1) = none := by
    refine (List.find?_congr fun entry hentry => ?_).trans
      (b := (shellAliases.zip shellTargets).find? fun entry => decide (cmd.name = entry.1)) ?_
    · rw [commandEquals_eq (names_noSpace.1 entry hentry), h.split.1]
    · cases cmd <;> decide
  rw [commandAliasTarget, hnone]
  rfl

theorem selected : (selectedCommand line.chars).any (!shellTakesArg.contains ·) = false := by
  have hwhole : shellCommands.find? (line.chars == ·) = none := by
    refine List.find?_eq_none.mpr fun name hname heq => ?_
    exact h.ne_name (names_noSpace.2.1 name hname) (beq_iff_eq.mp heq)
  have htoken : shellCommands.find? (commandEquals line.chars ·)
      = shellCommands.find? fun name => decide (cmd.name = name) :=
    List.find?_congr fun name hname => by
      rw [commandEquals_eq (names_noSpace.2.1 name hname), h.split.1]
  rw [selectedCommand, hwhole, htoken]
  cases cmd <;> decide

theorem branch : shellBranch line.chars = some cmd.name := by
  have htoken : shellBranches.find? (fun branch =>
        if branch.2 then line.chars == branch.1 else commandEquals line.chars branch.1)
      = shellBranches.find? fun branch => !branch.2 && decide (cmd.name = branch.1) := by
    refine List.find?_congr fun branch hbranch => ?_
    have hname := names_noSpace.2.2 branch hbranch
    rw [commandEquals_eq hname, h.split.1]
    cases branch.2 with
    | true => exact beq_eq_false_iff_ne.mpr (h.ne_name hname)
    | false => rfl
  rw [shellBranch, htoken]
  cases cmd <;> decide

theorem arg : (commandArg line).chars = path.chars ++ (List.replicate gap space ++ text) := by
  obtain ⟨spaces, hdrop⟩ := h.split.2
  refine (congrArg skipSpaces hdrop).trans (skipSpaces_replicate _ fun hhead => h.token ?_)
  obtain ⟨c, rest, hpath⟩ := List.exists_cons_of_ne_nil h.path_ne
  rw [hpath] at hhead ⊢
  exact Option.some.inj hhead ▸ List.mem_cons_self

theorem pathLength : pathLoop (cmd.room + 1) 0 (commandArg line).chars
    = min path.length cmd.room := by
  rw [h.arg, pathLoop_eq h.token _ (Nat.succ_pos _), Nat.zero_add, Nat.add_one_sub_one]
  · rfl
  · intro c hc
    cases gap with
    | zero =>
      have hnil : text = [] := not_not.mp fun hne => absurd (h.gap_pos hne) (Nat.lt_irrefl 0)
      rw [hnil] at hc
      exact nomatch hc
    | succ gap => exact (Option.some.inj hc).symm

/-- **The argument is split**, where the path is copied to its `n`-th character. -/
theorem splits {n : ℕ} (hn : n = min path.length cmd.room) :
    (commandArg line).take n = path.take cmd.room
      ∧ skipSpaces ((commandArg line).chars.drop n) = cmd.left path gap text := by
  have hle : n ≤ path.chars.length := hn ▸ Nat.min_le_left _ _
  constructor
  · refine CStr.ext ?_
    show (commandArg line).chars.take n = path.chars.take cmd.room
    rw [h.arg, List.take_append_of_le_length hle, hn, Nat.min_comm]
    exact List.take_eq_take_min.symm
  · rw [h.arg, WriteCommand.left]
    split
    · rename_i hfits
      rw [hn, Nat.min_eq_left hfits, CStr.length, List.drop_left]
      exact skipSpaces_replicate gap h.text_head
    · rename_i hlong
      have hroom : n = cmd.room := hn.trans (Nat.min_eq_right (Nat.le_of_not_le hlong))
      rw [List.drop_append_of_le_length hle, hroom]
      refine skipSpaces_replicate 0 fun hhead => ?_
      -- what is left starts inside of the token
      have hpos : 0 < (path.chars.drop cmd.room).length := by
        rw [List.length_drop]
        exact Nat.sub_pos_of_lt (Nat.lt_of_not_le hlong)
      obtain ⟨c, rest, hdrop⟩ := List.exists_cons_of_length_pos hpos
      rw [hdrop] at hhead
      refine h.token (List.mem_of_mem_drop (i := cmd.room) ?_)
      rw [hdrop]
      exact Option.some.inj hhead ▸ List.mem_cons_self

theorem left_length : (cmd.left path gap text).length ≤ 63 := by
  obtain ⟨spaces, hchars⟩ := h.chars
  have hshort : line.chars.length ≤ 63 := h.short
  rw [hchars] at hshort
  simp only [List.length_append, List.length_replicate] at hshort
  rw [WriteCommand.left]
  split
  · omega
  · simp only [List.length_append, List.length_replicate, List.length_drop]
    omega

/-- **The line is executed**: the text that is left goes to the path that is copied. -/
theorem execute (v : Vfs) : shellExecute v line = some
    (if cmd.left path gap text = [] then v
    else cmd.put v (path.take cmd.room) (cmd.left path gap text)) := by
  have hne : line.chars ≠ [] := by
    intro hnil
    have hname := h.split.1
    rw [hnil] at hname
    cases cmd <;> exact absurd hname (by decide)
  have hpos : 0 < min path.length cmd.room :=
    Nat.lt_min.mpr ⟨List.length_pos_iff.mpr h.path_ne, by cases cmd <;> decide⟩
  have hlength := h.pathLength
  obtain ⟨htake, hleft⟩ := h.splits hlength
  have hbranch : cmd.branch v (commandArg line) = if cmd.left path gap text = [] then v
      else cmd.put v (path.take cmd.room) (cmd.left path gap text) := by
    rw [branch_eq, hleft, htake, hlength]
    simp only [Nat.ne_of_gt hpos, false_or]
  have hexpected : ¬((commandArg line).chars ≠ [] ∧ false = true) := fun h => nomatch h.2
  rw [← hbranch, shellExecute, h.aliasTarget, h.selected, h.branch, if_neg hne, if_neg hexpected]
  cases cmd with
  | write => exact if_pos rfl
  | pwrite => exact (if_neg (by decide)).trans (if_pos rfl)

end WriteLine

end SaturnOS
