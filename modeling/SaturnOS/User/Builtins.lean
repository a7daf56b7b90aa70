import SaturnOS.User.Staging
import SaturnOS.User.Programs

/-!
# User/Builtins — what the programs that come with the kernel do

    /bin/user-args.sx a b      ──▸  "a b", exit 0
    /bin/user-demo.sx          ──▸  "hello from EL0 syscall\n", exit 7
    /bin/user-file.sx          ──▸  the first 24 bytes of /disk/syscall.txt, exit 0
    /bin/user-file-seek.sx     ──▸  18 bytes of it from the sixth on, exit 0

The code arrays of `programs.c`, instruction by instruction, from the entry of EL0 to the end of the
session.  Between two syscalls a program only computes, so its run is the list of its calls; what a
call finds in memory is what creation packed and what the calls before it stored.
-/

open Machinery A64

namespace SaturnOS

/-! ## Programs in place -/

/-- The address of an instruction. -/
def codeAt (n : ℕ) : Word := inRegion codeRegion (4 * n)

/-- **A program in its code page**, read off its words. -/
structure Running (L : Layout) (o : OsState) (slot : Fin 4) (code : List (BitVec 32))
    (program : List Instr) : Prop where
  home : Home L o.kernel slot
  text : HoldsAt (o.kernel.spaces.userRegionPages slot codeRegion) 0 (codeBytes code)
  decoded : code.map decode = program.map some

/-- A core after a call. -/
def afterCall (c : Core) (block : List Instr) (result : ℤ) : Core :=
  { execAll c block with
    x := Function.update (execAll c block).x 0 (BitVec.ofInt 64 result)
    pc := (execAll c block).pc + 4 }

theorem codeAt_succ (n : ℕ) : codeAt n + 4 = codeAt (n + 1) := inRegion_add codeRegion (4 * n) 4

theorem execAll_pc {block : List Instr} (hblock : block.all Instr.computes = true) {c : Core}
    {n : ℕ} (hpc : c.pc = codeAt n) : (execAll c block).pc = codeAt (n + block.length) := by
  induction block generalizing c n with
  | nil => exact hpc
  | cons i block ih =>
    obtain ⟨hi, hblock⟩ := Bool.and_eq_true_iff.mp hblock
    have hnext : (i.exec (fun _ => none) c).1.pc = codeAt (n + 1) := by
      rw [(@exec_computes c i _ (fun _ => none) hi).2, hpc, codeAt_succ]
    have hrest := ih hblock hnext
    rw [Nat.add_assoc, Nat.add_comm 1] at hrest
    exact hrest

theorem codeBytes_word {code : List (BitVec 32)} {j : ℕ} (hj : j < code.length) :
    ((codeBytes code).drop (4 * j)).take 4 = toLe 4 code[j].toNat :=
  chunk_flatMap (f := fun w : BitVec 32 => toLe 4 w.toNat) (fun _ => length_toLe 4 _) hj

section Running

variable {L : Layout} {S : Symbols} {o o' : OsState} {slot : Fin 4} {code : List (BitVec 32)}
  {program l : List Instr} {c : Core} {n : ℕ} {r : El0End} {result : ℤ} {imm : BitVec 16}

/-- **The instructions from one on** are listed there. -/
theorem Running.listing (h : Running L o slot code program) (n : ℕ) :
    (el0Platform L S).Listing o (codeAt n) (program.drop n) := by
  refine Listing.of_words (?_ : (code.drop n).map decode = _) fun j hj => ?_
  · rw [List.map_drop, h.decoded, List.map_drop]
  · have hlt : n + j < code.length := by
      rw [List.length_drop] at hj
      omega
    have hword := h.text.part (n := 4 * (n + j)) (m := 4)
    rw [codeBytes_word hlt, Nat.zero_add] at hword
    have hfetch := h.home.fetch rfl hword (by omega)
    rw [codeAt, inRegion_add, ← Nat.mul_add, List.getElem_drop]
    exact hfetch

/-- Calls that leave the code page leave the program. -/
theorem Running.congr (h : Running L o slot code program) (hview : SameView o.kernel o'.kernel)
    (hcode : o'.kernel.spaces.userRegionPages slot codeRegion
      = o.kernel.spaces.userRegionPages slot codeRegion) : Running L o' slot code program :=
  ⟨h.home.congr hview, hcode ▸ h.text, h.decoded⟩

/-- **A syscall of a program**: the instructions up to it, and its result. -/
theorem Running.call (h : Running L o slot code program) (hpc : c.pc = codeAt n)
    (block : List Instr) (hat : program.drop n = block ++ .svc imm :: l)
    (hblock : block.all Instr.computes = true) (hexit : (execAll c block).x 8 ≠ syscallExit)
    (hcall : syscallDispatch L S o ((execAll c block).x 8) ((execAll c block).x 0)
      ((execAll c block).x 1) ((execAll c block).x 2) ((execAll c block).x 3)
      = (o', .returns result)) :
    (Leaves (el0Platform L S).turn (o, c) r
        ↔ Leaves (el0Platform L S).turn (o', afterCall c block result) r)
      ∧ (afterCall c block result).pc = codeAt (n + (block.length + 1)) := by
  have hlist := h.listing (S := S) n
  rw [hat, ← hpc] at hlist
  refine ⟨leaves_call hblock hlist ?_, ?_⟩
  · show serveCall L S o (execAll c block).next = _
    have hx : (execAll c block).next.x = (execAll c block).x := rfl
    rw [serveCall, hx, if_neg hexit, hcall]
    rfl
  · rw [afterCall, execAll_pc hblock hpc, codeAt_succ, Nat.add_assoc]

/-- The instructions that only compute. -/
theorem Running.compute (h : Running L o slot code program) (hpc : c.pc = codeAt n)
    (block : List Instr) (hat : program.drop n = block ++ l)
    (hblock : block.all Instr.computes = true) :
    (Leaves (el0Platform L S).turn (o, c) r
        ↔ Leaves (el0Platform L S).turn (o, execAll c block) r)
      ∧ (execAll c block).pc = codeAt (n + block.length) := by
  have hlist := h.listing (S := S) n
  rw [hat, ← hpc] at hlist
  exact ⟨(leaves_block hblock hlist).1, execAll_pc hblock hpc⟩

/-- The state in which a program has left. -/
def exitState (o : OsState) (code : Word) : OsState :=
  { o with kernel := (userModeHandleExitSyscall code o.kernel).1 }

/-- **The exit of a program.** -/
theorem Running.exit (h : Running L o slot code program) (hopen : OpenSession S o.kernel)
    (hpc : c.pc = codeAt n) (block : List Instr) (hat : program.drop n = block ++ .svc imm :: l)
    (hblock : block.all Instr.computes = true) (hexit : (execAll c block).x 8 = syscallExit) :
    Leaves (el0Platform L S).turn (o, c) r
      ↔ r = .left (exitState o ((execAll c block).x 0)) := by
  have hlist := h.listing (S := S) n
  rw [hat, ← hpc] at hlist
  refine leaves_last hblock hlist ?_
  show serveCall L S o (execAll c block).next = _
  have hreturn := (handleExitSyscall_open hopen ((execAll c block).x 0)).1
  have hx : (execAll c block).next.x = (execAll c block).x := rfl
  rw [serveCall, hx, if_pos hexit, exitState]
  generalize userModeHandleExitSyscall ((execAll c block).x 0) o.kernel = left at hreturn ⊢
  obtain ⟨k, wr⟩ := left
  obtain rfl : wr = _ := hreturn
  rfl

/-- The instructions up to a load, and the load. -/
theorem Running.ldr (h : Running L o slot code program) (hpc : c.pc = codeAt n)
    (block : List Instr) {rt rn : Reg} {offset : BitVec 12}
    (hat : program.drop n = block ++ .ldr rt rn offset :: l)
    (hblock : block.all Instr.computes = true) {v : Word}
    (hload : el0Load L o ((execAll c block).x rn + (offset.setWidth 64 <<< 3)) = some v) :
    (Leaves (el0Platform L S).turn (o, c) r
        ↔ Leaves (el0Platform L S).turn (o, (execAll c block).put rt v) r)
      ∧ ((execAll c block).put rt v).pc = codeAt (n + (block.length + 1)) := by
  have hlist := h.listing (S := S) n
  rw [hat, ← hpc] at hlist
  obtain ⟨hleaves, hrest⟩ := leaves_block (r := r) hblock hlist
  refine ⟨hleaves.trans (leaves_ldr hrest hload), ?_⟩
  rw [Core.put, execAll_pc hblock hpc, codeAt_succ, Nat.add_assoc]

/-- The instructions up to a branch, and where it leads. -/
theorem Running.bcond (h : Running L o slot code program) (hpc : c.pc = codeAt n)
    (block : List Instr) {cond : BitVec 4} {offset : BitVec 19}
    (hat : program.drop n = block ++ .bcond cond offset :: l)
    (hblock : block.all Instr.computes = true) :
    Leaves (el0Platform L S).turn (o, c) r ↔ Leaves (el0Platform L S).turn
      (o, { execAll c block with
        pc := if (execAll c block).nzcv.holds cond then
          codeAt (n + block.length) + (offset.signExtend 64 <<< 2)
          else codeAt (n + (block.length + 1)) }) r := by
  have hlist := h.listing (S := S) n
  rw [hat, ← hpc] at hlist
  obtain ⟨hleaves, hrest⟩ := leaves_block (r := r) hblock hlist
  refine hleaves.trans ((leaves_bcond hrest).trans ?_)
  rw [execAll_pc hblock hpc]
  split
  · rfl
  · rw [Core.next, execAll_pc hblock hpc, codeAt_succ, Nat.add_assoc]

end Running

/-! ## Calls -/

/-- What is put out on the console. -/
def OsState.print (o : OsState) (bytes : List Byte) : OsState :=
  { o with console := o.console ++ bytes }

/-- **A write to the console** puts out what the page holds. -/
theorem write_console {L : Layout} {S : Symbols} {o : OsState} {slot : Fin 4} {i : Fin 3} {a : ℕ}
    {bytes : List Byte} {fd : Word} (hfd : fd = 1 ∨ fd = 2) (h : Home L o.kernel slot)
    (hbytes : HoldsAt (o.kernel.spaces.userRegionPages slot i) a bytes)
    (hmax : bytes.length ≤ 128) (arg3 : Word) :
    syscallDispatch L S o 1 fd (inRegion i a) (BitVec.ofNat 64 bytes.length) arg3
      = (o.print bytes, .returns bytes.length) := by
  show ended o (syscallWrite L o fd (inRegion i a) (BitVec.ofNat 64 bytes.length)) = _
  rcases Nat.eq_zero_or_pos bytes.length with hzero | hpos
  · obtain rfl := List.eq_nil_of_length_eq_zero hzero
    rw [syscallWrite, if_pos (by rfl), OsState.print, List.append_nil]
    rfl
  · have hlength : (BitVec.ofNat 64 bytes.length).toNat = bytes.length := by
      rw [BitVec.toNat_ofNat]
      omega
    have hend : a + bytes.length ≤ 4096 := by
      obtain ⟨hlast, -⟩ := hbytes (bytes.length - 1) (by omega)
      omega
    rw [syscallWrite, if_neg (ofNat_ne_zero hpos hend), hlength,
      if_neg (by rw [syscallWriteMax]; omega), h.readable rfl hpos hend, if_neg (by decide),
      if_pos hfd, h.load hbytes]
    rfl

theorem OsState.print_print (o : OsState) (a b : List Byte) :
    (o.print a).print b = o.print (a ++ b) :=
  congrArg (fun console => { o with console := console }) (List.append_assoc o.console a b)

theorem OsState.print_nil (o : OsState) : o.print [] = o :=
  congrArg (fun console => { o with console := console }) (List.append_nil o.console)

/-- What is printed leaves the program. -/
theorem Running.print {L : Layout} {o : OsState} {slot : Fin 4} {code : List (BitVec 32)}
    {program : List Instr} (h : Running L o slot code program) (bytes : List Byte) :
    Running L (o.print bytes) slot code program := h.congr (SameView.refl _) rfl

/-- A program at its entry, in an open session. -/
structure Entered (L : Layout) (S : Symbols) (o : OsState) (c : Core) (slot : Fin 4)
    (code : List (BitVec 32)) (program : List Instr) : Prop extends
    Running L o slot code program where
  session : OpenSession S o.kernel
  pc : c.pc = codeAt 0

/-- **A task that is ready for EL0 enters its program.** -/
theorem Staged.entered {L : Layout} {S : Symbols} {k : Kernel} {p : ℕ} {slot : Fin 4}
    {code : List (BitVec 32)} {program : List Instr} {data argument : List Byte} {o : OsState}
    {call : Cpu} (h : Staged L k p slot (programImage code data) argument)
    (hdecode : code.map decode = program.map some)
    (hroot : (k.tasks p).userAddressSpace.kernelRootTable ≠ 0)
    (henter : userModeRunTaskEnter S p k = (o.kernel, .ready))
    (hcall : EntryCall (k.tasks p) call) :
    Entered L S o (entryCore call) slot code program
      ∧ List.ofFn (o.kernel.spaces.userRegionPages slot dataRegion)
        = childPage (programImage code data) argument
      ∧ EntryRegisters (entryCore call) (programImage code data) (argumentTokens argument) := by
  obtain ⟨hhome, hopen, hspaces⟩ := h.home hroot henter
  obtain ⟨hpc, hregisters⟩ := h.registers hcall
  refine ⟨⟨⟨hhome, ?_, hdecode⟩, hopen, hpc⟩, ?_, hregisters⟩
  · rw [hspaces]
    exact h.text
  · rw [hspaces]
    exact h.packed.page_eq

/-! ## user-demo -/

def userDemoProgram : List Instr := [
  .movz 8 1 0, .movz 0 1 0, .movz 1 0x20 1, .movz 2 0x17 0, .svc 0,
  .movz 8 2 0, .movz 0 7 0, .svc 0, .brk 0]

section Demo

variable {L : Layout} {S : Symbols} {o : OsState} {slot : Fin 4} {c : Core}

/-- **user-demo** prints its message and exits with 7. -/
theorem user_demo_run (h : Entered L S o c slot userDemoCode userDemoProgram)
    (hdata : HoldsAt (o.kernel.spaces.userRegionPages slot dataRegion) 0 userDemoMessage.chars)
    (r : El0End) :
    Leaves (el0Platform L S).turn (o, c) r
      ↔ r = .left (exitState (o.print userDemoMessage.chars) 7) := by
  obtain ⟨hwrite, hpc⟩ := h.call (r := r) h.pc (l := userDemoProgram.drop 5)
    [.movz 8 1 0, .movz 0 1 0, .movz 1 0x20 1, .movz 2 0x17 0] rfl rfl
    (show (1 : Word) ≠ 2 by decide) (write_console (.inl rfl) h.home hdata (by decide) _)
  have hnext : Running L (o.print userDemoMessage.chars) slot userDemoCode userDemoProgram :=
    h.toRunning.congr (SameView.refl _) rfl
  exact hwrite.trans (hnext.exit h.session hpc [.movz 8 2 0, .movz 0 7 0] rfl rfl rfl)

end Demo

/-! ## user-args -/

section Packed

variable {page : Page} {image : SaturnExecImage} {argument : List Byte} {i : ℕ} {token : List Byte}

theorem wordBytes_eq (w : Word) : wordBytes w = toLe 8 w.toNat := by
  rw [wordBytes, toLe_eq_map]
  refine List.map_congr_left fun i _ => BitVec.eq_of_toNat_eq ?_
  have h256 : (256 : ℕ) = 2 ^ 8 := rfl
  rw [BitVec.toNat_setWidth, BitVec.toNat_ushiftRight, BitVec.toNat_ofNat,
    Nat.shiftRight_eq_div_pow, pow_mul, h256]

/-- An argument of a task: its address, its length and its text, in the data page. -/
structure PackedArgument (page : Page) (image : SaturnExecImage) (argument : List Byte) (i : ℕ)
    (token : List Byte) : Prop where
  address : HoldsAt page (argumentStart image + 8 * i) (toLe 8 (inRegion dataRegion
    (argumentStart image + 128 + stringsSize ((argumentTokens argument).take i))).toNat)
  length : HoldsAt page (argumentStart image + 64 + 8 * i)
    (toLe 8 (BitVec.ofNat 64 token.length).toNat)
  text : HoldsAt page
    (argumentStart image + 128 + stringsSize ((argumentTokens argument).take i)) token

/-- A word of an array of a page. -/
theorem HoldsAt.word {a : ℕ} {words : List Word} (h : HoldsAt page a (argumentArray words))
    (hi : i < 8) : HoldsAt page (a + 8 * i) (toLe 8 (words.getD i 0).toNat) := by
  have hpart := h.part (n := 8 * i) (m := 8)
  have hchunk := chunk_flatMap (f := fun j => wordBytes (words.getD j 0)) (k := 8) (fun _ => rfl)
    (l := List.range 8) (j := i) (by rwa [List.length_range])
  rw [List.getElem_range] at hchunk
  rw [argumentArray, taskUserArgMax, hchunk, wordBytes_eq] at hpart
  exact hpart

/-- **What a task finds in its data page**, from `childPage`. -/
theorem childPage_holds (h : List.ofFn page = childPage image argument)
    (hfew : (argumentTokens argument).length ≤ 8) : HoldsAt page 0 image.data ∧
      ∀ i token, (argumentTokens argument)[i]? = some token →
        PackedArgument page image argument i token := by
  have hle : image.data.length ≤ argumentStart image := by
    rw [argumentStart]
    omega
  have hpad : (image.data
      ++ List.replicate (argumentStart image - image.data.length) (0 : Byte)).length
      = argumentStart image := by
    rw [List.length_append, List.length_replicate]
    omega
  have hstrings := fun i token => @childPage_string image argument i token
  rw [← h] at hstrings
  rw [childPage] at h
  simp only [List.append_assoc] at h
  refine ⟨HoldsAt.of_ofFn (A := []) h, fun i token htoken => ?_⟩
  obtain ⟨hi, -⟩ := List.getElem?_eq_some_iff.mp htoken
  refine ⟨?_, ?_, ?_⟩
  · rw [← List.append_assoc, ← List.append_assoc] at h
    have hword := (HoldsAt.of_ofFn h).word (i := i) (by omega)
    rw [hpad, List.getD_eq_getElem?_getD, stringAddresses, List.getElem?_map,
      List.getElem?_range hi] at hword
    rw [← inRegion_add]
    exact hword
  · rw [← List.append_assoc, ← List.append_assoc, ← List.append_assoc] at h
    have hword := (HoldsAt.of_ofFn h).word (i := i) (by omega)
    rw [List.length_append, hpad, length_argumentArray, List.getD_eq_getElem?_getD, stringLengths,
      List.getElem?_map, htoken] at hword
    exact hword
  · have htext := (HoldsAt.of_take (hstrings i token htoken)).part (n := 0) (m := token.length)
    rw [List.drop_zero, List.take_left, Nat.add_zero] at htext
    exact htext

end Packed

def userArgsProgram : List Instr := [
  .cmp 0 2, .bcond 3 19, .mov 3 1, .mov 4 2,
  .ldr 1 3 0, .ldr 2 4 0, .movz 8 1 0, .movz 0 1 0, .svc 0,
  .movz 8 1 0, .movz 0 1 0, .movz 1 0x20 1, .add 1 1 0x78, .movz 2 1 0, .svc 0,
  .ldr 1 3 1, .ldr 2 4 1, .movz 8 1 0, .movz 0 1 0, .svc 0,
  .movz 8 2 0, .movz 0 0 0, .svc 0, .brk 0]

/-- What `user-args` prints. -/
def userArgsOutput : List (List Byte) → List Byte
  | first :: second :: _ => first ++ [0x20] ++ second
  | _ => []

section Args

variable {L : Layout} {S : Symbols} {o : OsState} {slot : Fin 4} {c : Core} {argument : List Byte}

/-- The branch is taken on a count below two. -/
theorem lower_iff (n : ℕ) (hn : n ≤ 8) :
    (subFlags (BitVec.ofNat 64 n) 2).holds 3 = decide (n < 2) := by
  revert n
  decide

/-- An offset in double words. -/
theorem wordOffset (k : BitVec 12) : k.setWidth 64 <<< 3 = BitVec.ofNat 64 (8 * k.toNat) := by
  have hk := k.isLt
  refine BitVec.eq_of_toNat_eq ?_
  rw [BitVec.toNat_shiftLeft, BitVec.toNat_setWidth, BitVec.toNat_ofNat, Nat.shiftLeft_eq]
  omega

/-- **An argument is printed**: its address and its length are loaded, and its text written. -/
theorem print_argument {code : List (BitVec 32)} {program l : List Instr} {n : ℕ} {k : BitVec 12}
    {image : SaturnExecImage} {token : List Byte} {r : El0End}
    (h : Running L o slot code program) (hpc : c.pc = codeAt n)
    (hat : program.drop n
      = [.ldr 1 3 k] ++ .ldr 2 4 k :: ([.movz 8 1 0, .movz 0 1 0] ++ .svc 0 :: l))
    (hargv : c.x 3 = inRegion dataRegion (argumentStart image))
    (hlengths : c.x 4 = inRegion dataRegion (argumentStart image + 64))
    (hargument : PackedArgument (o.kernel.spaces.userRegionPages slot dataRegion) image argument
      k.toNat token) (hmax : token.length ≤ 128) :
    ∃ c' : Core, (Leaves (el0Platform L S).turn (o, c) r
        ↔ Leaves (el0Platform L S).turn (o.print token, c') r)
      ∧ c'.pc = codeAt (n + 5) ∧ c'.x 3 = c.x 3 ∧ c'.x 4 = c.x 4 := by
  have haddress := h.home.loadWord rfl hargument.address
  rw [← inRegion_add, ← wordOffset, ← hargv] at haddress
  have hlength := h.home.loadWord rfl hargument.length
  rw [← inRegion_add, ← wordOffset, ← hlengths] at hlength
  obtain ⟨hfirst, hpc₁⟩ := h.ldr (S := S) (r := r) hpc [] hat rfl haddress
  have hat₁ : program.drop (n + 1)
      = .ldr 2 4 k :: ([.movz 8 1 0, .movz 0 1 0] ++ .svc 0 :: l) := by
    rw [← List.drop_drop, hat]
    rfl
  obtain ⟨hsecond, hpc₂⟩ := h.ldr (S := S) (r := r) hpc₁ [] hat₁ rfl hlength
  have hat₂ : program.drop (n + 2) = [.movz 8 1 0, .movz 0 1 0] ++ .svc 0 :: l := by
    rw [← List.drop_drop, hat]
    rfl
  obtain ⟨hcall, hpc₃⟩ := h.call (r := r) hpc₂ [.movz 8 1 0, .movz 0 1 0] hat₂ rfl
    (show (1 : Word) ≠ 2 by decide) (write_console (.inl rfl) h.home hargument.text hmax _)
  exact ⟨_, hfirst.trans (hsecond.trans hcall), hpc₃, rfl, rfl⟩

/-- **user-args** prints its first two arguments with a space between them, and exits with 0. -/
theorem user_args_run (h : Entered L S o c slot userArgsCode userArgsProgram)
    (hpage : List.ofFn (o.kernel.spaces.userRegionPages slot dataRegion)
      = childPage userArgsImage argument)
    (hshort : argument.length ≤ 128) (hfew : (argumentTokens argument).length ≤ 8)
    (hentry : EntryRegisters c userArgsImage (argumentTokens argument)) (r : El0End) :
    Leaves (el0Platform L S).turn (o, c) r
      ↔ r = .left (exitState (o.print (userArgsOutput (argumentTokens argument))) 0) := by
  obtain ⟨hdata, hargument⟩ := childPage_holds hpage hfew
  have hsize := argumentTokens_size argument
  have hflags := lower_iff (argumentTokens argument).length hfew
  have hbranch := h.bcond (S := S) (r := r) h.pc [.cmp 0 2]
    (l := userArgsProgram.drop 2) rfl rfl
  rw [show (execAll c [.cmp 0 2]).nzcv = subFlags (c.x 0) 2 from rfl, hentry.argc, hflags]
    at hbranch
  refine hbranch.trans ?_
  obtain ⟨hargc, hargv, hlengths⟩ := hentry
  generalize argumentTokens argument = tokens at hargument hsize hargc ⊢
  match tokens with
  | [] | [_] =>
    rw [show userArgsOutput _ = [] from rfl, OsState.print_nil]
    exact h.toRunning.exit h.session (n := 20) rfl
      [.movz 8 2 0, .movz 0 0 0] (l := [.brk 0]) rfl rfl rfl
  | first :: second :: rest =>
    have htwo : ¬ (first :: second :: rest).length < 2 := by simp
    have hlens : first.length ≤ 128 ∧ second.length ≤ 128 := by
      simp only [stringsSize, List.map_cons, List.sum_cons] at hsize
      omega
    have hspace : HoldsAt (o.kernel.spaces.userRegionPages slot dataRegion) 120 [0x20] :=
      hdata.part (n := 120) (m := 1)
    rw [decide_eq_false htwo, if_neg (by decide)]
    obtain ⟨hmoves, hpc⟩ := h.toRunning.compute (S := S) (r := r) (n := 2) (c := { execAll c
      [.cmp 0 2] with pc := codeAt 2 }) rfl [.mov 3 1, .mov 4 2]
      (l := userArgsProgram.drop 4) rfl rfl
    obtain ⟨c₁, hfirst, hpc₁, hx3, hx4⟩ := print_argument (S := S) (r := r) h.toRunning hpc
      (k := 0) (l := userArgsProgram.drop 9) rfl hargv hlengths (hargument 0 first rfl) hlens.1
    obtain ⟨hsecond, hpc₂⟩ := (h.print first).call (r := r) hpc₁
      [.movz 8 1 0, .movz 0 1 0, .movz 1 0x20 1, .add 1 1 0x78, .movz 2 1 0]
      (l := userArgsProgram.drop 15) rfl rfl (show (1 : Word) ≠ 2 by decide)
      (write_console (.inl rfl) (h.print first).home hspace (by decide) _)
    obtain ⟨c₂, hthird, hpc₃, -, -⟩ := print_argument (S := S) (r := r)
      ((h.print first).print _) hpc₂ (k := 1) (l := userArgsProgram.drop 20) rfl
      (hx3.trans hargv) (hx4.trans hlengths) (hargument 1 second rfl) hlens.2
    refine hmoves.trans (hfirst.trans (hsecond.trans (hthird.trans ?_)))
    rw [OsState.print_print, OsState.print_print, ← List.append_assoc]
    exact (h.print _).exit h.session hpc₃ [.movz 8 2 0, .movz 0 0 0] (l := [.brk 0])
      rfl rfl rfl

end Args

end SaturnOS
