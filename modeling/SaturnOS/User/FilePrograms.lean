import SaturnOS.User.Builtins

/-!
# User/FilePrograms — the programs that use files

    open ──fd──▸ (seek) ──▸ read ──n──▸ write 1 ──▸ close ──▸ exit 0        fd, n  or  -1

Each call of these programs takes the result of one before it as it is, an error too: a descriptor
`-1` is no descriptor, and a length `-1` is too long.  So they come to their end over any file
system, and print what `vfs_read` gives, or nothing.
-/

open Machinery A64

namespace SaturnOS

/-! ## Replies -/

/-- The result of a call that gives bytes. -/
def reply (bytes : Option (List Byte)) : ℤ := bytes.elim syscallErrInval fun b => b.length

/-- What a call of a program on files leaves alone: its view and its code. -/
structure Undisturbed (slot : Fin 4) (o o' : OsState) : Prop where
  view : SameView o.kernel o'.kernel
  text : o'.kernel.spaces.userRegionPages slot codeRegion
    = o.kernel.spaces.userRegionPages slot codeRegion
  console : o'.console = o.console
  session : o'.kernel.userSession = o.kernel.userSession
  current : o.kernel.currentTask < o.kernel.taskCount →
    o'.kernel.currentTask < o'.kernel.taskCount

namespace Undisturbed

variable {slot : Fin 4} {o o' o'' : OsState}

theorem refl (slot : Fin 4) (o : OsState) : Undisturbed slot o o :=
  ⟨SameView.refl _, rfl, rfl, rfl, id⟩

theorem trans (h : Undisturbed slot o o') (h' : Undisturbed slot o' o'') :
    Undisturbed slot o o'' :=
  ⟨h.view.trans h'.view, h'.text.trans h.text, h'.console.trans h.console,
    h'.session.trans h.session, h'.current ∘ h.current⟩

theorem vfs (slot : Fin 4) (o : OsState) (v : Vfs) : Undisturbed slot o { o with vfs := v } :=
  ⟨SameView.refl _, rfl, rfl, rfl, id⟩

theorem data (slot : Fin 4) (o : OsState) (v : Vfs) (page : Page) :
    Undisturbed slot o { o with
      vfs := v
      kernel := o.kernel.setPages (Function.update o.kernel.spaces.userRegionPages slot
        (Function.update (o.kernel.spaces.userRegionPages slot) dataRegion page)) } where
  view := SameView.setPages o.kernel _
  text := by
    show Function.update o.kernel.spaces.userRegionPages slot _ slot codeRegion = _
    rw [Function.update_self, Function.update_of_ne (by decide)]
  console := rfl
  session := rfl
  current := id

theorem modFile (h : Undisturbed slot o o') (file : Fin 4) (f : TaskFile → TaskFile) :
    Undisturbed slot o (o'.modFile file f) :=
  h.trans ⟨SameView.modFile o' file f, rfl, rfl, o'.kernel.modTask_userSession rfl, id⟩

end Undisturbed

section Calls

variable {L : Layout} {S : Symbols} {o o' : OsState} {slot : Fin 4} {i : Fin 3} {a n : ℕ}
  {path : CStr}

/-- A path that stands in a page is copied. -/
theorem Home.copyString {k : Kernel} (h : Home L k slot)
    (hpath : HoldsAt (k.spaces.userRegionPages slot i) a path.chars) :
    copyString L k (inRegion i a) path.length = some (path, true) := by
  obtain ⟨chars, hnul⟩ := path
  show SaturnOS.copyString L k (inRegion i a) chars.length = _
  induction chars generalizing a with
  | nil => rfl
  | cons b chars ih =>
    obtain ⟨ha, hb⟩ := HoldsAt.head hpath
    have hne : b ≠ 0 := fun heq => hnul (heq ▸ List.mem_cons_self)
    have hnul' : 0 ∉ chars := fun hmem => hnul (List.mem_cons_of_mem b hmem)
    rw [List.length_cons, SaturnOS.copyString, h.userLoad ha, hb]
    dsimp only
    rw [dif_neg hne, show inRegion i a + 1 = inRegion i (a + 1) from inRegion_add i a 1,
      ih hnul' (HoldsAt.tail hpath), Option.map_some]
    rfl

/-! ### Opening -/

/-- **An open of a path in a page.** -/
theorem open_path (h : Home L o.kernel slot) (hcurrent : o.kernel.currentTask < o.kernel.taskCount)
    (hpath : HoldsAt (o.kernel.spaces.userRegionPages slot i) a path.chars)
    (hpos : 1 ≤ path.length) (hlen : path.length < 48) (create : Bool) :
    syscallOpen L o (inRegion i a) (BitVec.ofNat 64 path.length) create
      = some (openResult o path create) := by
  have hfits : a + path.length ≤ 4096 := by
    obtain ⟨hlast, -⟩ := hpath (path.length - 1) (by rw [CStr.length] at hpos ⊢; omega)
    omega
  have hlength : (BitVec.ofNat 64 path.length).toNat = path.length := by
    rw [BitVec.toNat_ofNat]
    omega
  refine syscallOpen_eq hcurrent (ofNat_ne_zero hpos hfits) ?_ (h.readable rfl hpos hfits) ?_ create
  · rwa [hlength]
  · rw [hlength, h.copyString hpath]

theorem openResult_undisturbed (slot : Fin 4) (o : OsState) (path : CStr) (create : Bool) :
    Undisturbed slot o (openResult o path create).1 := by
  rw [openResult]
  split
  · exact Undisturbed.refl slot o
  · rename_i file _
    rw [openFile_eq]
    generalize hcopied : o.modFile file (fun f =>
      { f with path := putPath f.path (path.chars ++ [0]) }) = o₁
    have h₁ : Undisturbed slot o o₁ := hcopied ▸ (Undisturbed.refl slot o).modFile file _
    split
    · exact (h₁.trans (Undisturbed.vfs slot o₁ _)).modFile file _
    · generalize vfsFileData (openMade o₁.vfs (o₁.file file).name create).1
        (o₁.file file).name = r
      obtain ⟨v, bytes⟩ := r
      cases bytes with
      | none => exact (h₁.trans (Undisturbed.vfs slot o₁ v)).modFile file clearPath
      | some bytes =>
        exact (h₁.trans (Undisturbed.vfs slot o₁ v)).modFile file fun f =>
          { f with used := true, offset := 0 }

theorem openResult_spaces (o : OsState) (path : CStr) (create : Bool) :
    (openResult o path create).1.kernel.spaces = o.kernel.spaces := by
  rw [openResult]
  split
  · rfl
  · rename_i file _
    rw [openFile_eq]
    split
    · rfl
    · generalize vfsFileData _ _ = r
      obtain ⟨v, bytes⟩ := r
      cases bytes with
      | none => rfl
      | some bytes => rfl

theorem openResult_or (o : OsState) (path : CStr) (create : Bool) :
    (openResult o path create).2 = syscallErrInval ∨ 0 ≤ (openResult o path create).2 := by
  rw [openResult]
  split
  · exact .inl rfl
  · rename_i file _
    rw [openFile_eq]
    split
    · exact .inl rfl
    · generalize vfsFileData _ _ = r
      obtain ⟨v, bytes⟩ := r
      cases bytes with
      | none => exact .inl rfl
      | some bytes => exact .inr (show (0 : ℤ) ≤ 3 + (file.val : ℤ) by omega)

/-- **What an open comes to**: a descriptor, or `-1`. -/
theorem openResult_cases (h : Home L o.kernel slot)
    (hcurrent : o.kernel.currentTask < o.kernel.taskCount)
    (hpath : HoldsAt (o.kernel.spaces.userRegionPages slot i) a path.chars)
    (hpos : 1 ≤ path.length) (hlen : path.length < 48) (create : Bool) :
    (openResult o path create).2 = syscallErrInval
      ∨ ∃ file : Fin 4, (openResult o path create).2 = 3 + (file.val : ℤ)
        ∧ Opened o (openResult o path create).1 file path create := by
  refine (openResult_or o path create).imp_right fun hfd => ?_
  obtain ⟨path', file, hcopy, -, hresult, hopened⟩ := syscallOpen_opened
    (open_path h hcurrent hpath hpos hlen create) hfd
  have hlength : (BitVec.ofNat 64 path.length).toNat = path.length := by
    rw [BitVec.toNat_ofNat]
    omega
  rw [hlength, h.copyString hpath] at hcopy
  obtain ⟨rfl, -⟩ := Prod.mk.inj (Option.some.inj hcopy)
  exact ⟨file, hresult, hopened⟩

/-! ### Reading, and writing out what was read -/

/-- What a read of a descriptor gives. -/
def readResult (o : OsState) (fd : Word) (n : ℕ) : Option (List Byte) :=
  (usedFile o.kernel fd).bind fun file =>
    (vfsRead o.vfs (o.file file).name (o.file file).offset.toNat true n).2

theorem vfsRead_le {v : Vfs} {path : CStr} {offset : ℕ} {hasBuffer : Bool} {bytes : List Byte}
    (h : (vfsRead v path offset hasBuffer n).2 = some bytes) : bytes.length ≤ n := by
  rcases vfsRead_result v path offset hasBuffer n with heq | ⟨hnone, -⟩
  · rw [heq] at h
    obtain ⟨c, -, hread⟩ := Option.bind_eq_some_iff.mp h
    obtain ⟨-, hread⟩ := Option.ite_none_left_eq_some.mp hread
    obtain rfl := Option.some.inj hread
    rw [List.length_take]
    omega
  · rw [hnone] at h
    cases h

theorem HoldsAt.of_write {page : Page} {bytes : List Byte} (hfits : a + bytes.length ≤ 4096) :
    HoldsAt (writePage page a bytes.length fun j => bytes.getD j 0) a bytes := by
  intro j hj
  refine ⟨by omega, ?_⟩
  rw [writePage, if_pos (show a ≤ a + j ∧ a + j < a + bytes.length by omega),
    Nat.add_sub_cancel_left, List.getD_eq_getElem?_getD, List.getElem?_eq_getElem hj,
    Option.getD_some]

/-- **A read into a page** leaves there what it gives. -/
theorem read_page (h : Home L o.kernel slot) (hcurrent : o.kernel.currentTask < o.kernel.taskCount)
    (fd : Word) (hpos : 0 < n) (hmax : n ≤ 128) (hfits : a + n ≤ 4096) :
    ∃ o', syscallRead L o fd (inRegion dataRegion a) (BitVec.ofNat 64 n)
        = some (o', reply (readResult o fd n))
      ∧ Undisturbed slot o o' ∧ Loads o.vfs o'.vfs ∧ ∀ bytes, readResult o fd n = some bytes →
        bytes.length ≤ n ∧ HoldsAt (o'.kernel.spaces.userRegionPages slot dataRegion) a bytes := by
  have hlength : (BitVec.ofNat 64 n).toNat = n := by
    rw [BitVec.toNat_ofNat]
    omega
  have hwritable : (userRegionTable dataRegion).writable = true := rfl
  rw [syscallRead, currentTaskMutable, if_pos hcurrent, hlength,
    decide_eq_false (show ¬ syscallReadMax < n from Nat.not_lt.mpr hmax)]
  cases hslot : fdSlot fd with
  | none =>
    have hnone : readResult o fd n = none := by
      rw [readResult, usedFile, hslot, currentTaskMutable, if_pos hcurrent]
      rfl
    rw [hnone]
    exact ⟨o, rfl, Undisturbed.refl slot o, .inl rfl,
      fun _ heq => absurd heq.symm (Option.some_ne_none _)⟩
  | some s =>
    rw [if_neg (show ¬ ((some o.kernel.current).isNone || (some s).isNone || false) = true from
      Bool.false_ne_true), if_neg (ofNat_ne_zero hpos hfits), h.writable rfl hpos hfits hwritable,
      if_neg (by decide), readResult]
    cases hused : usedFile o.kernel fd with
    | none => exact ⟨o, rfl, Undisturbed.refl slot o, .inl rfl,
        fun _ heq => absurd heq.symm (Option.some_ne_none _)⟩
    | some file =>
      have hbytes := @vfsRead_le n o.vfs (o.file file).name (o.file file).offset.toNat true
      have hloads := vfsRead_loads o.vfs (o.file file).name (o.file file).offset.toNat true n
      rw [Option.bind_some]
      dsimp only
      generalize vfsRead o.vfs (o.file file).name (o.file file).offset.toNat true n = r
        at hbytes hloads ⊢
      obtain ⟨v, bytes⟩ := r
      cases bytes with
      | none => exact ⟨_, rfl, Undisturbed.vfs slot o v, hloads,
        fun _ heq => absurd heq.symm (Option.some_ne_none _)⟩
      | some bytes =>
        have hle := hbytes rfl
        dsimp only
        rw [h.store hwritable (by omega)]
        refine ⟨_, rfl, ?_, hloads, ?_⟩
        · exact (Undisturbed.data slot o v _).modFile file fun f =>
            { f with offset := f.offset + BitVec.ofNat 64 bytes.length }
        · rintro _ heq
          obtain rfl := Option.some.inj heq
          refine ⟨hle, ?_⟩
          show HoldsAt (Function.update o.kernel.spaces.userRegionPages slot _ slot dataRegion) _ _
          rw [Function.update_self, Function.update_self]
          exact HoldsAt.of_write (by omega)

/-- **A write of what was read** puts it out; a length `-1` is refused. -/
theorem write_reply (h : Home L o.kernel slot) (bytes : Option (List Byte))
    (hbytes : ∀ b, bytes = some b →
      b.length ≤ 128 ∧ HoldsAt (o.kernel.spaces.userRegionPages slot i) a b) (arg3 : Word) :
    syscallDispatch L S o 1 1 (inRegion i a) (BitVec.ofInt 64 (reply bytes)) arg3
      = (o.print (bytes.getD []), .returns (reply bytes)) := by
  cases bytes with
  | none =>
    show ended o (syscallWrite L o 1 (inRegion i a) (-1)) = _
    rw [syscallWrite, if_neg (by decide), if_pos (by decide), Option.getD_none, OsState.print_nil]
    rfl
  | some b =>
    obtain ⟨hmax, hholds⟩ := hbytes b rfl
    show syscallDispatch L S o 1 1 (inRegion i a) (BitVec.ofInt 64 (b.length : ℤ)) arg3 = _
    rw [BitVec.ofInt_natCast, write_console (.inl rfl) h hholds hmax arg3]
    rfl

/-! ### Seeking and closing -/

theorem syscallClose_undisturbed (slot : Fin 4) (o : OsState) (fd : Word) :
    Undisturbed slot o (syscallClose o fd).1 ∧ (syscallClose o fd).1.vfs = o.vfs := by
  rw [syscallClose]
  split
  · exact ⟨Undisturbed.refl slot o, rfl⟩
  · rename_i file _
    exact ⟨(Undisturbed.refl slot o).modFile file fun f =>
      { clearPath f with used := false, offset := 0 }, rfl⟩

theorem syscallSeek_undisturbed (slot : Fin 4) (o : OsState) (fd place : Word) :
    Undisturbed slot o (syscallSeek o fd place).1
      ∧ Loads o.vfs (syscallSeek o fd place).1.vfs := by
  rw [syscallSeek]
  split
  · exact ⟨Undisturbed.refl slot o, .inl rfl⟩
  · rename_i file _
    have hloads := vfsFileData_loads o.vfs (o.file file).name
    split
    · rename_i v heq
      rw [heq] at hloads
      exact ⟨Undisturbed.vfs slot o v, hloads⟩
    · rename_i v bytes heq
      rw [heq] at hloads
      split
      · exact ⟨Undisturbed.vfs slot o v, hloads⟩
      · exact ⟨(Undisturbed.vfs slot o v).modFile file fun f => { f with offset := place }, hloads⟩

end Calls

/-! ## Reading programs -/

/-- A descriptor of a path, or no descriptor. -/
def Points (o : OsState) (fd : Word) (path : CStr) : Prop :=
  ∀ file, usedFile o.kernel fd = some file → (o.file file).name = path

section Points

variable {L : Layout} {o : OsState} {fd : Word} {path : CStr} {n : ℕ} {bytes : List Byte}

/-- **What is read is a part of the file.** -/
theorem Points.read (h : Points o fd path) (hread : readResult o fd n = some bytes) :
    ∃ c, o.vfs.contents path = some c ∧ bytes <:+: c := by
  obtain ⟨file, hused, hread⟩ := Option.bind_eq_some_iff.mp hread
  rw [h file hused] at hread
  rcases vfsRead_result o.vfs path (o.file file).offset.toNat true n with heq | ⟨hnone, -⟩
  · rw [heq] at hread
    obtain ⟨c, hc, hpart⟩ := Option.bind_eq_some_iff.mp hread
    obtain ⟨-, hpart⟩ := Option.ite_none_left_eq_some.mp hpart
    obtain rfl := Option.some.inj hpart
    exact ⟨c, hc, (List.take_prefix _ _).isInfix.trans (List.drop_suffix _ _).isInfix⟩
  · rw [hnone] at hread
    cases hread

theorem Points.seek (h : Points o fd path) (place : Word) :
    Points (syscallSeek o fd place).1 fd path := by
  rw [syscallSeek]
  cases hused : usedFile o.kernel fd with
  | none => exact h
  | some file =>
    dsimp only
    generalize vfsFileData o.vfs (o.file file).name = r
    obtain ⟨v, bytes⟩ := r
    cases bytes with
    | none => exact h
    | some bytes =>
      dsimp only
      split
      · exact h
      · intro file' hused'
        obtain ⟨-, hslot, -⟩ := usedFile_spec hused
        obtain ⟨-, hslot', -⟩ := usedFile_spec hused'
        obtain rfl := Option.some.inj (hslot'.symm.trans hslot)
        show (({ o with vfs := v }.modFile file' fun f => { f with offset := place }).file
          file').name = path
        rw [modFile_file]
        exact h file' hused

end Points

/-- What a reading program does with its descriptor in `x3`. -/
def readerTail (n : BitVec 16) : List Instr := [
  .movz 8 5 0, .mov 0 3, .movz 1 0x20 1, .add 1 1 64, .movz 2 n 0, .svc 0,
  .mov 2 0, .movz 8 1 0, .movz 0 1 0, .svc 0,
  .movz 8 6 0, .mov 0 3, .svc 0,
  .movz 8 2 0, .movz 0 0 0, .svc 0, .brk 0]

def userFileProgram : List Instr :=
  [.movz 8 4 0, .movz 0 0x20 1, .movz 1 0x11 0, .svc 0, .mov 3 0] ++ readerTail 24

def userFileSeekProgram : List Instr :=
  [.movz 8 4 0, .movz 0 0x20 1, .movz 1 0x11 0, .svc 0, .mov 3 0,
    .movz 8 8 0, .mov 0 3, .movz 1 6 0, .svc 0] ++ readerTail 18

section Readers

variable {L : Layout} {S : Symbols} {o o' : OsState} {slot : Fin 4} {c : Core} {n : ℕ}
  {code : List (BitVec 32)} {program : List Instr}

theorem Running.undisturbed (h : Running L o slot code program) (hkept : Undisturbed slot o o') :
    Running L o' slot code program := h.congr hkept.view hkept.text

theorem movz_value (n : BitVec 16) :
    n.setWidth 64 <<< (16 * (0 : BitVec 2).toNat) = BitVec.ofNat 64 n.toNat := by
  refine BitVec.eq_of_toNat_eq ?_
  have hn := n.isLt
  show (n.setWidth 64 <<< 0).toNat = _
  rw [BitVec.shiftLeft_zero, BitVec.toNat_setWidth, BitVec.toNat_ofNat]

/-- **The end of a reading program**: what its descriptor gives, or nothing, is put out. -/
theorem reader_tail (h : Running L o slot code program) (hopen : OpenSession S o.kernel)
    (hcurrent : o.kernel.currentTask < o.kernel.taskCount) (hpc : c.pc = codeAt n)
    (size : BitVec 16) (hat : program.drop n = readerTail size) (hpos : 0 < size.toNat)
    (hmax : size.toNat ≤ 128) :
    ∃ o', (∀ r, Leaves (el0Platform L S).turn (o, c) r ↔ r = .left (exitState o' 0))
      ∧ o'.kernel.userSession = o.kernel.userSession
      ∧ (∀ q, o'.vfs.contents q = o.vfs.contents q)
      ∧ o'.console = o.console ++ (readResult o (c.x 3) size.toNat).getD [] := by
  obtain ⟨o₁, hread, hkept₁, hloads, hbytes⟩ :=
    read_page (L := L) (a := 64) h.home hcurrent (c.x 3) hpos hmax (by omega)
  generalize readResult o (c.x 3) size.toNat = bytes at hread hbytes ⊢
  have hcall₁ : syscallDispatch L S o 5 (c.x 3) (inRegion dataRegion 64)
      (size.setWidth 64 <<< (16 * (0 : BitVec 2).toNat)) (c.x 3)
      = (o₁, .returns (reply bytes)) := by
    rw [movz_value]
    show ended o (syscallRead L o _ _ _) = _
    rw [hread]
    rfl
  have h₁ := h.undisturbed hkept₁
  have hcall₂ := write_reply (L := L) (S := S) h₁.home bytes
    (fun b hb => ⟨(hbytes b hb).1.trans hmax, (hbytes b hb).2⟩) (c.x 3)
  have h₂ := h₁.print (bytes.getD [])
  obtain ⟨hkept₃, hvfs₃⟩ := syscallClose_undisturbed slot (o₁.print (bytes.getD [])) (c.x 3)
  refine ⟨(syscallClose (o₁.print (bytes.getD [])) (c.x 3)).1, fun r => ?_,
    hkept₃.session.trans hkept₁.session, fun q => ?_, ?_⟩
  · obtain ⟨hleaves₁, hpc₁⟩ := h.call (r := r) hpc
      [.movz 8 5 0, .mov 0 3, .movz 1 0x20 1, .add 1 1 64, .movz 2 size 0] hat rfl
      (show (5 : Word) ≠ 2 by decide) hcall₁
    have hat₁ : program.drop (n + 6) = (readerTail size).drop 6 := by
      rw [← List.drop_drop, hat]
    obtain ⟨hleaves₂, hpc₂⟩ := h₁.call (r := r) hpc₁
      [.mov 2 0, .movz 8 1 0, .movz 0 1 0] hat₁ rfl (show (1 : Word) ≠ 2 by decide) hcall₂
    have hat₂ : program.drop (n + 10) = (readerTail size).drop 10 := by
      rw [← List.drop_drop, hat]
    obtain ⟨hleaves₃, hpc₃⟩ := h₂.call (r := r) hpc₂ [.movz 8 6 0, .mov 0 3] hat₂ rfl
      (show (6 : Word) ≠ 2 by decide) rfl
    have hat₃ : program.drop (n + 13) = (readerTail size).drop 13 := by
      rw [← List.drop_drop, hat]
    have hopen₃ := (hopen.congr hkept₁.session).congr hkept₃.session
    exact hleaves₁.trans (hleaves₂.trans (hleaves₃.trans ((h₂.undisturbed hkept₃).exit hopen₃ hpc₃
      [.movz 8 2 0, .movz 0 0 0] hat₃ rfl rfl)))
  · rw [hvfs₃]
    exact hloads.contents q
  · rw [hkept₃.console]
    show o₁.console ++ _ = _
    rw [hkept₁.console]

/-- **An opening at the entry of a program**, with the descriptor kept in `x3`. -/
theorem entry_open (h : Entered L S o c slot code program)
    (hcurrent : o.kernel.currentTask < o.kernel.taskCount) {path : CStr} (create : Bool)
    {call size : BitVec 16} {l : List Instr}
    (hdata : HoldsAt (o.kernel.spaces.userRegionPages slot dataRegion) 0 path.chars)
    (hpos : 1 ≤ path.length) (hlen : path.length < 48) (hsize : size.toNat = path.length)
    (hcall : call = if create then 7 else 4)
    (hat : program = [.movz 8 call 0, .movz 0 0x20 1, .movz 1 size 0] ++ .svc 0 ::
      ([.mov 3 0] ++ l)) :
    ∃ c' : Core, (∀ r, Leaves (el0Platform L S).turn (o, c) r
        ↔ Leaves (el0Platform L S).turn ((openResult o path create).1, c') r)
      ∧ Running L (openResult o path create).1 slot code program ∧ c'.pc = codeAt 5
      ∧ c'.x 3 = BitVec.ofInt 64 (openResult o path create).2 := by
  have hopened : syscallOpen L o (inRegion dataRegion 0)
      (size.setWidth 64 <<< (16 * (0 : BitVec 2).toNat)) create
      = some (openResult o path create) := by
    rw [movz_value, hsize]
    exact open_path h.home hcurrent hdata hpos hlen create
  have h₁ := h.toRunning.undisturbed (openResult_undisturbed slot o path create)
  have hdispatch : ∀ x2 x3, syscallDispatch L S o
      (call.setWidth 64 <<< (16 * (0 : BitVec 2).toNat)) (inRegion dataRegion 0)
      (size.setWidth 64 <<< (16 * (0 : BitVec 2).toNat)) x2 x3
      = ((openResult o path create).1, .returns (openResult o path create).2) := fun x2 x3 => by
    subst hcall
    cases create with
    | false =>
      show ended o (syscallOpen L o _ _ _) = _
      rw [hopened]
      rfl
    | true =>
      show ended o (syscallOpen L o _ _ _) = _
      rw [hopened]
      rfl
  have hexit : call.setWidth 64 <<< (16 * (0 : BitVec 2).toNat) ≠ syscallExit := by
    subst hcall
    cases create with
    | false => decide
    | true => decide
  have hcalled := fun r => h.call (r := r) h.pc (n := 0) _ hat rfl hexit (hdispatch _ _)
  have hrest : program.drop 4 = [.mov 3 0] ++ l := by
    rw [hat]
    rfl
  have hmoved := fun r => h₁.compute (S := S) (r := r) (hcalled r).2 _ hrest rfl
  exact ⟨_, fun r => (hcalled r).1.trans (hmoved r).1, h₁, (hmoved .aborted).2, rfl⟩

/-! ### What they print -/

/-- **What a reading program does**: no file is changed, and a part of one is put out; from a disk
that serves, all of that part. -/
structure ReadsOut (o o' : OsState) (path : CStr) (part : List Byte → List Byte) : Prop where
  files : ∀ q, o'.vfs.contents q = o.vfs.contents q
  printed : ∃ bytes, o'.console = o.console ++ bytes ∧
    (bytes = [] ∨ ∃ c, o.vfs.contents path = some c ∧ bytes <:+: c)
  whole : Formatted o.vfs.sfs → (freeFile o.kernel.current).isSome = true →
    ∀ c, o.vfs.contents path = some c → o'.console = o.console ++ part c

/-- A file that is opened as it is. -/
theorem Opened.streamAt {file : Fin 4} {path : CStr} (h : Opened o o' file path false)
    (hlen : path.length < 48) (hformatted : Formatted o.vfs.sfs) {bytes : List Byte}
    (hcontents : o.vfs.contents path = some bytes) : Stream o' file path bytes 0 := by
  have hloads : Loads o.vfs o'.vfs := h.vfs
  refine ⟨?_, by rw [h.file]; rfl, ?_, by rw [h.file]; rfl, (hloads.contents path).trans hcontents,
    fun _ => hloads.sfs (fun _ hs => hs.tick) hformatted⟩
  · rw [h.kernel]
    exact h.current
  · rw [h.file]
    exact name_putPath { o.file file with used := true, offset := 0 } hlen

/-- A file of a disk that serves is opened at its start. -/
theorem openResult_stream (h : Home L o.kernel slot)
    (hcurrent : o.kernel.currentTask < o.kernel.taskCount) {path : CStr}
    (hpath : HoldsAt (o.kernel.spaces.userRegionPages slot dataRegion) 0 path.chars)
    (hpos : 1 ≤ path.length) (hlen : path.length < 48) (hformatted : Formatted o.vfs.sfs)
    (hfree : (freeFile o.kernel.current).isSome = true) {bytes : List Byte}
    (hcontents : o.vfs.contents path = some bytes) :
    ∃ file, BitVec.ofInt 64 (openResult o path false).2 = slotFd file
      ∧ Stream (openResult o path false).1 file path bytes 0 := by
  obtain ⟨file, hfree⟩ := Option.isSome_iff_exists.mp hfree
  have hload : (vfsFileData o.vfs path).2 = some bytes :=
    (vfsFileData_routed path fun _ => hformatted.serving 0).trans hcontents
  have hfd := openResult_present hfree hlen (by rfl : (openMade o.vfs path false).2 = true) hload
  rcases openResult_cases h hcurrent hpath hpos hlen false with hno | ⟨file', hfd', hopened⟩
  · rw [hno, syscallErrInval] at hfd
    omega
  · exact ⟨file', by rw [hfd', slotFd], hopened.streamAt hlen hformatted hcontents⟩

theorem Stream.readResult {file : Fin 4} {path : CStr} {bytes : List Byte} {offset : ℕ}
    (h : Stream o file path bytes offset) (hle : offset ≤ bytes.length) (n : ℕ) :
    readResult o (slotFd file) n = some ((bytes.drop offset).take n) := by
  rw [SaturnOS.readResult, h.usedFile_eq, Option.bind_some, h.name, h.offset,
    read_formatted h.formatted h.contents, readPart, if_neg (by simp [hle])]

/-- A seek behind the end leaves the place. -/
theorem Stream.sought {file : Fin 4} {path : CStr} {bytes : List Byte} {offset : ℕ}
    (h : Stream o file path bytes offset) (place : Word) :
    Stream (syscallSeek o (slotFd file) place).1 file path bytes
      (if place.toNat ≤ bytes.length then place.toNat else offset) := by
  by_cases hplace : place.toNat ≤ bytes.length
  · obtain ⟨o', heq, hstream, -⟩ := h.seek hplace
    rw [if_pos hplace, heq]
    exact hstream
  · have hdata := vfsFileData_routed (v := o.vfs) path fun hd => (h.formatted hd).serving 0
    have hv := vfsFileData_loads o.vfs path
    rw [if_neg hplace, syscallSeek, h.usedFile_eq]
    dsimp only
    rw [h.name]
    generalize vfsFileData o.vfs path = r at hdata hv ⊢
    obtain ⟨v, file'⟩ := r
    obtain rfl : file' = some bytes := hdata.trans h.contents
    obtain ⟨hcontents, hformatted⟩ := h.loads hv
    dsimp only
    rw [if_pos (Nat.not_le.mp hplace)]
    exact ⟨h.current, h.used, h.name, h.offset, hcontents, hformatted⟩

theorem openResult_points (h : Home L o.kernel slot)
    (hcurrent : o.kernel.currentTask < o.kernel.taskCount) {path : CStr}
    (hpath : HoldsAt (o.kernel.spaces.userRegionPages slot dataRegion) 0 path.chars)
    (hpos : 1 ≤ path.length) (hlen : path.length < 48) (create : Bool) :
    Points (openResult o path create).1 (BitVec.ofInt 64 (openResult o path create).2) path := by
  intro file hused
  rcases openResult_cases h hcurrent hpath hpos hlen create with hfd | ⟨file', hfd, hopened⟩
  · rw [hfd] at hused
    cases (usedFile_spec hused).2.1
  · rw [hfd] at hused
    obtain rfl := Option.some.inj ((usedFile_spec hused).2.1.symm.trans (fdSlot_slotFd file'))
    rw [hopened.file]
    exact name_putPath { o.file file with used := true, offset := 0 } hlen

/-- A path that is opened without being made leaves every file. -/
theorem openResult_contents (o : OsState) (path q : CStr) :
    (openResult o path false).1.vfs.contents q = o.vfs.contents q := by
  rw [openResult]
  split
  · rfl
  · rename_i file _
    rw [openFile_eq]
    generalize hcopied : o.modFile file (fun f =>
      { f with path := putPath f.path (path.chars ++ [0]) }) = o₁
    have hvfs : o₁.vfs = o.vfs := hcopied ▸ rfl
    have hmade : ∀ v p, openMade v p false = (v, true) := fun v p => rfl
    rw [hmade, if_neg (show ¬ (!true) = true from Bool.false_ne_true), hvfs]
    have hloads := vfsFileData_loads o.vfs (o₁.file file).name
    generalize vfsFileData o.vfs (o₁.file file).name = r at hloads ⊢
    obtain ⟨v, bytes⟩ := r
    cases bytes with
    | none => exact hloads.contents q
    | some bytes => exact hloads.contents q

/-- What a descriptor that `x3` holds gives is what is printed. -/
theorem ReadsOut.of_tail {path : CStr} {part : List Byte → List Byte} {o₁ : OsState} {fd : Word}
    {n : ℕ} (hfiles : ∀ q, o'.vfs.contents q = o₁.vfs.contents q)
    (hfiles₁ : ∀ q, o₁.vfs.contents q = o.vfs.contents q) (hconsole₁ : o₁.console = o.console)
    (hconsole : o'.console = o₁.console ++ (readResult o₁ fd n).getD [])
    (hpoints : Points o₁ fd path)
    (hwhole : Formatted o.vfs.sfs → (freeFile o.kernel.current).isSome = true →
      ∀ c, o.vfs.contents path = some c → readResult o₁ fd n = some (part c)) :
    ReadsOut o o' path part where
  files q := (hfiles q).trans (hfiles₁ q)
  printed := by
    rw [hconsole₁] at hconsole
    refine ⟨_, hconsole, ?_⟩
    cases hread : readResult o₁ fd n with
    | none => exact .inl rfl
    | some bytes =>
      obtain ⟨c, hc, hpart⟩ := hpoints.read hread
      exact .inr ⟨c, (hfiles₁ path).symm.trans hc, hpart⟩
  whole hformatted hfree c hc := by
    rw [hconsole, hconsole₁, hwhole hformatted hfree c hc]
    rfl

/-- **user-file** prints the first 24 bytes of its file, and exits with 0. -/
theorem user_file_run (h : Entered L S o c slot userFileCode userFileProgram)
    (hcurrent : o.kernel.currentTask < o.kernel.taskCount)
    (hdata : HoldsAt (o.kernel.spaces.userRegionPages slot dataRegion) 0 userFilePath.chars) :
    ∃ o', (∀ r, Leaves (el0Platform L S).turn (o, c) r ↔ r = .left (exitState o' 0))
      ∧ o'.kernel.userSession = o.kernel.userSession
      ∧ ReadsOut o o' userFilePath fun c => c.take 24 := by
  obtain ⟨c₁, hopen, h₁, hpc₁, hx₁⟩ := entry_open h hcurrent false hdata (by decide)
    (by decide) (by decide) rfl rfl
  have hkept := openResult_undisturbed slot o userFilePath false
  obtain ⟨o', hleaves, hsession, hfiles, hconsole⟩ := reader_tail h₁ (h.session.congr hkept.session)
    (hkept.current hcurrent) hpc₁ 24 rfl (by decide) (by decide)
  rw [hx₁] at hconsole
  refine ⟨o', fun r => (hopen r).trans (hleaves r), hsession.trans hkept.session,
    .of_tail hfiles (openResult_contents o _) hkept.console hconsole
    (openResult_points h.home hcurrent hdata (by decide) (by decide) false)
    fun hformatted hfree c hc => ?_⟩
  obtain ⟨file, hfd, hstream⟩ := openResult_stream h.home hcurrent hdata (by decide) (by decide)
    hformatted hfree hc
  rw [hfd]
  exact hstream.readResult (Nat.zero_le _) 24

/-- **user-file-seek** prints 18 bytes of its file from the sixth on, or from the first where the
file ends before, and exits with 0. -/
theorem user_file_seek_run (h : Entered L S o c slot userFileSeekCode userFileSeekProgram)
    (hcurrent : o.kernel.currentTask < o.kernel.taskCount)
    (hdata : HoldsAt (o.kernel.spaces.userRegionPages slot dataRegion) 0 userFilePath.chars) :
    ∃ o', (∀ r, Leaves (el0Platform L S).turn (o, c) r ↔ r = .left (exitState o' 0))
      ∧ o'.kernel.userSession = o.kernel.userSession
      ∧ ReadsOut o o' userFilePath
        fun c => (c.drop (if 6 ≤ c.length then 6 else 0)).take 18 := by
  obtain ⟨c₁, hopen, h₁, hpc₁, hx₁⟩ := entry_open h hcurrent false hdata (by decide)
    (by decide) (by decide) rfl rfl
  have hkept := openResult_undisturbed slot o userFilePath false
  have hpoints := openResult_points h.home hcurrent hdata (by decide) (by decide) false
  have hwhole := openResult_stream h.home hcurrent hdata (by decide) (by decide)
  have hfiles₁ := openResult_contents o userFilePath
  generalize openResult o userFilePath false = opened at hopen h₁ hx₁ hkept hpoints hwhole hfiles₁
  obtain ⟨o₁, fd⟩ := opened
  dsimp only at hopen h₁ hx₁ hkept hpoints hwhole hfiles₁
  have hcall : syscallDispatch L S o₁ 8 (c₁.x 3) 6 (c₁.x 2) (c₁.x 3)
      = ((syscallSeek o₁ (c₁.x 3) 6).1, .returns (syscallSeek o₁ (c₁.x 3) 6).2) := rfl
  obtain ⟨hkept₂, hloads⟩ := syscallSeek_undisturbed slot o₁ (c₁.x 3) 6
  have hsought := fun r => h₁.call (r := r) (S := S) hpc₁
    [.movz 8 8 0, .mov 0 3, .movz 1 6 0] rfl rfl (show (8 : Word) ≠ 2 by decide) hcall
  obtain ⟨o', hleaves, hsession, hfiles, hconsole⟩ := reader_tail (h₁.undisturbed hkept₂)
    ((h.session.congr hkept.session).congr hkept₂.session)
    (hkept₂.current (hkept.current hcurrent)) (hsought .aborted).2 18 rfl (by decide)
    (by decide)
  have hconsole' : o'.console = (syscallSeek o₁ (c₁.x 3) 6).1.console
      ++ (readResult (syscallSeek o₁ (c₁.x 3) 6).1 (c₁.x 3) 18).getD [] := hconsole
  rw [← hx₁] at hpoints
  refine ⟨o', fun r => (hopen r).trans ((hsought r).1.trans (hleaves r)),
    hsession.trans (hkept₂.session.trans hkept.session), .of_tail hfiles
    (fun q => (hloads.contents q).trans (hfiles₁ q)) (hkept₂.console.trans hkept.console) hconsole'
    (hpoints.seek 6) fun hformatted hfree bytes hbytes => ?_⟩
  obtain ⟨file, hfd, hstream⟩ := hwhole hformatted hfree hbytes
  rw [hx₁, hfd]
  refine (hstream.sought 6).readResult ?_ 18
  show (if 6 ≤ bytes.length then 6 else 0) ≤ bytes.length
  split
  · assumption
  · exact Nat.zero_le _

end Readers

/-! ## The writing program -/

section Made

variable {v : Vfs} {path diskPath : CStr} {q : CStr}

theorem vfsCreate_others (hdisk : DiskOk v.sfs) (hd : vfsDiskPath path = some diskPath)
    (hq : q ≠ path) : (vfsCreate v path none 0).1.contents q = v.contents q := by
  rw [vfsCreate, hd]
  dsimp only
  by_cases hm : v.sfs.mounted = true
  · rcases (hdisk.formatted hm).filesOk.write diskPath none 0 with heq | ⟨s', heq, hfiles⟩
    · rw [heq]
    · have honly : OnlyFile v { v with sfs := s' } path := onlyFile_disk hd rfl fun d hne =>
        (hfiles.contents d).trans (Function.update_of_ne hne ..)
      rw [heq]
      exact honly.others q hq
  · rw [writeFile_refused fun hn => hm (canWrite_iff.mp hn.1).1]

/-- What is made or cut on the disk is the one file. -/
theorem openMade_others (hdisk : DiskOk v.sfs) (hd : vfsDiskPath path = some diskPath)
    (hq : q ≠ path) : (openMade v path true).1.contents q = v.contents q := by
  have hcreated := vfsCreate_others hdisk hd hq
  have hfails := @vfsCreate_fails v path hdisk none 0
  rw [openMade, if_pos rfl]
  generalize vfsCreate v path none 0 = r at hcreated hfails
  obtain ⟨v', ok⟩ := r
  cases ok with
  | true => exact hcreated
  | false =>
    obtain rfl : v' = v := hfails rfl
    show (vfsTruncate v' path 0).1.contents q = _
    cases hok : (vfsTruncate v' path 0).2 with
    | false => exact (vfsTruncate_fails hdisk hok).contents q
    | true =>
      obtain ⟨c, hc⟩ : ∃ c, v'.contents path = some c := by
        have ho := vfsTruncate_outcome (v := v') hd 0
        generalize vfsTruncate v' path 0 = r at ho hok
        cases ho with
        | refused hbad => cases hok
        | unread hv hnone => cases hok
        | edited hserves hc hsize hdata hr => exact ⟨_, (contents_routed hd).trans hc⟩
      obtain ⟨v'', heq, -, honly⟩ := truncate_formatted
        (fun _ => hdisk.of_contents ((contents_routed hd).symm.trans hc)) hc (Nat.zero_le 4096)
      rw [heq]
      exact honly.others q hq

end Made

section Writer

variable {L : Layout} {S : Symbols} {o o' : OsState} {slot : Fin 4} {c : Core} {i : Fin 3} {a : ℕ}
  {bytes : List Byte}

/-- **A write to a descriptor** of what a page holds. -/
theorem write_page (h : Home L o.kernel slot) {fd : Word} (hfd : ¬ (fd = 1 ∨ fd = 2))
    (hbytes : HoldsAt (o.kernel.spaces.userRegionPages slot i) a bytes)
    (hpos : 0 < bytes.length) (hmax : bytes.length ≤ 128) :
    ∃ o' result, syscallWrite L o fd (inRegion i a) (BitVec.ofNat 64 bytes.length)
        = some (o', result) ∧ Undisturbed slot o o'
      ∧ (usedFile o.kernel fd = none → o'.vfs = o.vfs)
      ∧ ∀ file, usedFile o.kernel fd = some file → o'.vfs = (vfsWrite o.vfs (o.file file).name
        (o.file file).offset.toNat
        (some fun j => (userLoad L o.kernel (inRegion i a + BitVec.ofNat 64 j)).getD 0)
        bytes.length).1 := by
  have hlength : (BitVec.ofNat 64 bytes.length).toNat = bytes.length := by
    rw [BitVec.toNat_ofNat]
    omega
  have hend : a + bytes.length ≤ 4096 := by
    obtain ⟨hlast, -⟩ := hbytes (bytes.length - 1) (by omega)
    omega
  rw [syscallWrite, if_neg (ofNat_ne_zero hpos hend), hlength,
    if_neg (by rw [syscallWriteMax]; omega), h.readable rfl hpos hend, if_neg (by decide),
    if_neg hfd]
  cases hused : usedFile o.kernel fd with
  | none => exact ⟨o, _, rfl, Undisturbed.refl slot o, fun _ => rfl,
      fun _ heq => absurd heq.symm (Option.some_ne_none _)⟩
  | some file =>
    dsimp only
    generalize hwrite : vfsWrite o.vfs (o.file file).name (o.file file).offset.toNat
      (some fun j => (userLoad L o.kernel (inRegion i a + BitVec.ofNat 64 j)).getD 0)
      bytes.length = r
    obtain ⟨v, written⟩ := r
    cases written with
    | none =>
      refine ⟨_, _, rfl, Undisturbed.vfs slot o v, fun heq => absurd heq (Option.some_ne_none _),
        fun file' hfile => ?_⟩
      obtain rfl := Option.some.inj hfile
      rw [hwrite]
    | some written =>
      dsimp only
      rw [h.load hbytes]
      refine ⟨_, _, rfl, (Undisturbed.vfs slot o v).modFile file fun f =>
        { f with offset := f.offset + BitVec.ofNat 64 written },
        fun heq => absurd heq (Option.some_ne_none _), fun file' hfile => ?_⟩
      obtain rfl := Option.some.inj hfile
      rw [hwrite]
      rfl

/-- **A path that is made and opened**… -/
theorem openResult_created (h : Home L o.kernel slot)
    (hcurrent : o.kernel.currentTask < o.kernel.taskCount) {path : CStr}
    (hpath : HoldsAt (o.kernel.spaces.userRegionPages slot i) a path.chars)
    (hpos : 1 ≤ path.length) (hlen : path.length < 48) (hnames : NamesOk o.vfs)
    (hdisk : DiskOk o.vfs.sfs) (hfree : (freeFile o.kernel.current).isSome = true)
    (hmade : (openMade o.vfs path true).2 = true) :
    ∃ file, BitVec.ofInt 64 (openResult o path true).2 = slotFd file
      ∧ Stream (openResult o path true).1 file path [] 0
      ∧ Loads (openMade o.vfs path true).1 (openResult o path true).1.vfs := by
  obtain ⟨file, hfree⟩ := Option.isSome_iff_exists.mp hfree
  obtain ⟨hdisk', bytes, hbytes⟩ := openMade_contents hnames hdisk hmade
  have hload := (vfsFileData_routed path fun _ => hdisk'.serving 0).trans hbytes
  have hfd := openResult_present hfree hlen hmade hload
  rcases openResult_cases h hcurrent hpath hpos hlen true with hno | ⟨file', hfd', hopened⟩
  · rw [hno, syscallErrInval] at hfd
    omega
  · exact ⟨file', by rw [hfd', slotFd], (hopened.stream hnames hlen fun _ => hdisk).1, hopened.vfs⟩

/-- …or not. -/
theorem openResult_refused {path : CStr} (hlen : path.length < 48) (hdisk : DiskOk o.vfs.sfs)
    (hrefused : (freeFile o.kernel.current).isSome = true → (openMade o.vfs path true).2 = false) :
    (openResult o path true).2 = syscallErrInval ∧ Loads o.vfs (openResult o path true).1.vfs := by
  rw [openResult]
  cases hfree : freeFile o.kernel.current with
  | none => exact ⟨rfl, .inl rfl⟩
  | some file =>
    have hmade := hrefused (by rw [hfree]; rfl)
    have hloads := openMade_fails hdisk hmade
    dsimp only
    rw [openFile_eq, modFile_file, name_putPath _ hlen]
    show ((if !(openMade o.vfs path true).2 then _ else _ : OsState × ℤ)).2 = _
      ∧ Loads o.vfs (if !(openMade o.vfs path true).2 then _ else _ : OsState × ℤ).1.vfs
    rw [hmade, if_pos (by decide)]
    exact ⟨rfl, hloads⟩

/-- **What the writing program does**: its file has its text, if it can be made and opened, and
nothing else changes. -/
structure WritesOut (o o' : OsState) (path : CStr) (message : List Byte) : Prop where
  others : ∀ q, q ≠ path → o'.vfs.contents q = o.vfs.contents q
  stored : (freeFile o.kernel.current).isSome = true → (openMade o.vfs path true).2 = true →
    o'.vfs.contents path = some message
  refused : ((freeFile o.kernel.current).isSome = true → (openMade o.vfs path true).2 = false) →
    o'.vfs.contents path = o.vfs.contents path

/-- **Made and opened**, the file is empty, and a write at its start stores the text. -/
theorem WritesOut.of_stream {o₁ : OsState} {path diskPath : CStr} {file : Fin 4}
    {message : List Byte} {text : ℕ → Byte} (hdisk : DiskOk o.vfs.sfs)
    (hrouted : vfsDiskPath path = some diskPath)
    (hfree : (freeFile o.kernel.current).isSome = true)
    (hmade : (openMade o.vfs path true).2 = true) (hstream : Stream o₁ file path [] 0)
    (hloads : Loads (openMade o.vfs path true).1 o₁.vfs) (hpos : 0 < message.length)
    (hmax : 0 + message.length ≤ 4096) (htext : cells text 0 message.length = message)
    (hvfs : o'.vfs = (vfsWrite o₁.vfs (o₁.file file).name (o₁.file file).offset.toNat (some text)
      message.length).1) : WritesOut o o' path message := by
  rw [hstream.name, hstream.offset] at hvfs
  obtain ⟨v, heq, hcontents, honly⟩ :=
    write_formatted hstream.formatted hstream.contents text hpos hmax
  rw [heq] at hvfs
  refine ⟨fun q hq => ?_, fun _ _ => ?_, fun hno => ?_⟩
  · rw [hvfs, honly.others q hq, hloads.contents q]
    exact openMade_others hdisk hrouted hq
  · rw [hvfs, hcontents le_rfl, htext, splice_of_le (Nat.zero_le _), List.take_nil, List.drop_nil,
      List.nil_append, List.append_nil]
  · cases hmade.symm.trans (hno hfree)

/-- **Refused**, nothing is written. -/
theorem WritesOut.of_refused {path : CStr} (message : List Byte)
    (hno : (freeFile o.kernel.current).isSome = true → (openMade o.vfs path true).2 = false)
    (hsame : ∀ q, o'.vfs.contents q = o.vfs.contents q) : WritesOut o o' path message :=
  ⟨fun q _ => hsame q, fun hfree hmade => absurd (hmade.symm.trans (hno hfree)) (by decide),
    fun _ => hsame _⟩

def userFileWriteProgram : List Instr := [
  .movz 8 7 0, .movz 0 0x20 1, .movz 1 0x14 0, .svc 0, .mov 3 0,
  .movz 8 1 0, .mov 0 3, .movz 1 0x20 1, .add 1 1 64, .movz 2 0x11 0, .svc 0,
  .movz 8 6 0, .mov 0 3, .svc 0,
  .movz 8 2 0, .movz 0 0 0, .svc 0, .brk 0]

/-- A descriptor, or `-1`, is no console. -/
theorem openResult_fd (h : Home L o.kernel slot)
    (hcurrent : o.kernel.currentTask < o.kernel.taskCount) {path : CStr} (create : Bool)
    (hpath : HoldsAt (o.kernel.spaces.userRegionPages slot i) a path.chars)
    (hpos : 1 ≤ path.length) (hlen : path.length < 48) :
    ¬ (BitVec.ofInt 64 (openResult o path create).2 = 1
      ∨ BitVec.ofInt 64 (openResult o path create).2 = 2) := by
  rcases openResult_cases h hcurrent hpath hpos hlen create with hno | ⟨file, hfd, -⟩
  · rw [hno]
    decide
  · rw [hfd]
    exact slotFd_ne file

/-- **user-file-write** writes its file, prints nothing, and exits with 0. -/
theorem user_file_write_run (h : Entered L S o c slot userFileWriteCode userFileWriteProgram)
    (hcurrent : o.kernel.currentTask < o.kernel.taskCount)
    (hdata : HoldsAt (o.kernel.spaces.userRegionPages slot dataRegion) 0 userFileWritePath.chars)
    (hmessage : HoldsAt (o.kernel.spaces.userRegionPages slot dataRegion) 64
      userFileWriteMessage.chars) :
    ∃ o', (∀ r, Leaves (el0Platform L S).turn (o, c) r ↔ r = .left (exitState o' 0))
      ∧ o'.kernel.userSession = o.kernel.userSession ∧ o'.console = o.console
      ∧ (NamesOk o.vfs → DiskOk o.vfs.sfs →
        WritesOut o o' userFileWritePath userFileWriteMessage.chars) := by
  obtain ⟨c₁, hopen, h₁, hpc₁, hx₁⟩ := entry_open h hcurrent true hdata (by decide)
    (by decide) (by decide) rfl rfl
  have hkept := openResult_undisturbed slot o userFileWritePath true
  have hfd := openResult_fd h.home hcurrent true hdata (by decide) (by decide)
  have hcreated := openResult_created h.home hcurrent hdata (by decide) (by decide)
  have hrefused := @openResult_refused o userFileWritePath (by decide)
  rw [← openResult_spaces o userFileWritePath true] at hmessage
  generalize openResult o userFileWritePath true = opened
    at hopen h₁ hx₁ hkept hfd hcreated hrefused hmessage
  obtain ⟨o₁, fd⟩ := opened
  dsimp only at hopen h₁ hx₁ hkept hfd hcreated hrefused hmessage
  rw [← hx₁] at hfd hcreated
  obtain ⟨o₂, result, hwrite, hkept₂, hunused, hused⟩ := write_page h₁.home hfd hmessage (by decide)
    (by decide)
  have hcall : syscallDispatch L S o₁ 1 (c₁.x 3) (inRegion dataRegion 64)
      (BitVec.ofNat 64 userFileWriteMessage.chars.length) (c₁.x 3) = (o₂, .returns result) := by
    show ended o₁ (syscallWrite L o₁ _ _ _) = _
    rw [hwrite]
    rfl
  obtain ⟨hkept₃, hvfs₃⟩ := syscallClose_undisturbed slot o₂ (c₁.x 3)
  have h₂ := h₁.undisturbed hkept₂
  have hwritten := fun r => h₁.call (r := r) hpc₁ (S := S)
    [.movz 8 1 0, .mov 0 3, .movz 1 0x20 1, .add 1 1 64, .movz 2 0x11 0] rfl rfl
    (show (1 : Word) ≠ 2 by decide) hcall
  have hclosed := fun r => h₂.call (r := r) (hwritten r).2 (S := S)
    [.movz 8 6 0, .mov 0 3] (l := [.movz 8 2 0, .movz 0 0 0, .svc 0, .brk 0]) rfl rfl
    (show (6 : Word) ≠ 2 by decide) rfl
  have hopen₃ := ((h.session.congr hkept.session).congr hkept₂.session).congr hkept₃.session
  have hleft := fun r => (h₂.undisturbed hkept₃).exit (r := r) hopen₃ (hclosed r).2
    [.movz 8 2 0, .movz 0 0 0] rfl rfl rfl
  refine ⟨_, fun r => (hopen r).trans ((hwritten r).1.trans ((hclosed r).1.trans (hleft r))),
    hkept₃.session.trans (hkept₂.session.trans hkept.session),
    hkept₃.console.trans (hkept₂.console.trans hkept.console), fun hnames hdisk => ?_⟩
  have hends : (syscallClose o₂ (c₁.x 3)).1.vfs = o₂.vfs := hvfs₃
  by_cases hmade : (freeFile o.kernel.current).isSome = true
    ∧ (openMade o.vfs userFileWritePath true).2 = true
  · obtain ⟨hfree, hmade⟩ := hmade
    obtain ⟨file, hfile, hstream, hloads⟩ := hcreated hnames hdisk hfree hmade
    exact .of_stream hdisk
      (rfl : vfsDiskPath userFileWritePath = some ⟨ascii "/user-write.txt", by decide⟩) hfree hmade
      hstream hloads (by decide) (by decide) (cells_userLoad (h₁.home.load hmessage))
      (hends.trans (hused file (hfile ▸ hstream.usedFile_eq)))
  · have hno : (freeFile o.kernel.current).isSome = true →
        (openMade o.vfs userFileWritePath true).2 = false := fun hfree =>
      Bool.eq_false_iff.mpr fun hok => hmade ⟨hfree, hok⟩
    obtain ⟨hinval, hloads⟩ := hrefused hdisk hno
    have hnone : usedFile o₁.kernel (c₁.x 3) = none := by
      refine Option.eq_none_iff_forall_ne_some.mpr fun file hsome => ?_
      rw [hx₁, hinval] at hsome
      cases (usedFile_spec hsome).2.1
    refine .of_refused _ hno fun q => ?_
    rw [hends, hunused hnone]
    exact hloads.contents q

end Writer

end SaturnOS
